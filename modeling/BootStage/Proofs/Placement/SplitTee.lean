import BootStage.Proofs.Placement.Reserved
import BootStage.Proofs.Placement.TeeLoads

/-!
# Containers on a board whose DRAM is cold

When DRAM lost its content, a TEE image with the signature is split, or it is refused.  If it is split
(`SplitCold`), the descriptors of the TEE and of its two parts say what the header says, the parts
lie in the windows that the configuration provides, and they keep clear of this stage and of each
other.

    TEE image with the signature, DRAM cold, load accepted
      → some header stands at the front of the image, and the load is `SplitCold` for it
                                                                     (cold_container_is_split)

In the layout at the top of DRAM the header is read twice: once to pick the window of the pager, and
once to place it there.  Both times the pager has the same address (`Header.Places.exists_pager`).
-/

namespace BootStage.Placement

/-- What a container with this header makes of a table, apart from the windows: the TEE is entered at
its pager, the parts are as large as the header says, what is not empty is fetched, and nothing lies
over this stage or over the other part. -/
structure SplitTable (header : Tee.Header) (layout : Layout) (table table' : ImageTable) : Prop where
  entry : table'.tee.entry.pc = table'.teePager.region.base
  arguments : table'.tee.entry.arg0 = table'.teePaged.region.base ∧ table'.tee.entry.arg1 = 0 ∧
    table'.tee.entry.arg2 = 0
  state : table'.tee.entry.state = header.state
  pagerSize : header.Declares .pager table'.teePager.imageSize ∧
    table'.teePager.region.size = table'.teePager.imageSize
  pagedSize : header.Declares .paged table'.teePaged.imageSize ∧
    table'.teePaged.region.size = table'.teePaged.imageSize
  pagerFetched : table'.teePager.imageSize ≠ 0 ∧ table'.teePager.skipsLoading = false
  pagedFetched : table'.teePaged.imageSize ≠ 0 → table'.teePaged.skipsLoading = false
  pagedLeft : table'.teePaged.imageSize = 0 →
    table'.teePaged.attributes = table.teePaged.attributes
  clear : ∀ r ∈ [layout.stage, layout.deviceTree],
    table'.teePager.region.Apart r ∧ table'.teePaged.region.Apart r
  apart : table'.teePager.region.Apart table'.teePaged.region
  others : ∀ image, image ≠ .tee → image ≠ .teePager → image ≠ .teePaged →
    table'.get image = table.get image

/-- What a container with this header leads to, from the session before the load and the exchanges to
the session after it. -/
structure SplitCold (header : Tee.Header) (t : List Exchange) (s s' : Session) : Prop where
  table : SplitTable header s.placement.config.layout s.placement.table s'.placement.table
  /-- With fixed windows, the parts lie in what were the regions of the parts. -/
  inFixed : s.placement.config.teeWindows = .fixed →
    s'.placement.table.teePager.region.Within s.placement.table.teePager.region ∧
      s'.placement.table.teePaged.region.Within s.placement.table.teePaged.region
  /-- At the top of DRAM, the pager lies in the window of its own if its declared address does, and
  otherwise both parts lie in the secure window. -/
  inDramTop : s.placement.config.teeWindows = .dramTop → ∃ pager size top,
    header.segments.filter (·.kind = .pager) = [pager] ∧ ⟨.dramSize, size⟩ ∈ t ∧
      s.placement.config.layout.dramTopWindow? size = some top ∧
      s'.placement.table.teePager.region.Within
        (if s.placement.config.layout.teePager.Covers pager.address.toNat
          then s.placement.config.layout.teePager else top) ∧
      s'.placement.table.teePaged.region.Within top
  kept : (∃ e ∈ t, e.request = .saveStageParameters) ↔
    s.placement.config.layout.isDramAddress s'.placement.table.tee.entry.pc = true
  /-- A failure to keep the parameters adds a record, while there is room for it, and a line. -/
  lost : ∀ fault, ⟨.saveStageParameters, .error fault⟩ ∈ t →
    s'.placement =
        (s.withTable s'.placement.table).placement.addDegraded .tee .contextSaveFailed ∧
      s'.log = s.log.record .warning Log.stageSource ["Cannot save stage parameters: ", fault.message]
  notLost : (∀ fault, ⟨.saveStageParameters, .error fault⟩ ∉ t) →
    s' = s.withTable s'.placement.table

/-! ## An accepted load in its parts -/

/-- An accepted load of a container on a cold board, in its parts: the windows were found, the image
was split, and then the parameters of the stage were kept or not. -/
theorem TeeLoad.exists_split {s s' : Session} {t : List Exchange} {base : UInt64} {length : Nat}
    {bytes : List UInt8} (h : TeeLoad s t (.ok ()) s')
    (hRead : ⟨.imageBytes base length, some bytes⟩ ∈ t) (hSigned : Tee.hasSignature bytes = true)
    (hCold : ⟨.isDramRestored, true⟩ ∉ t) :
    ∃ t₁ windows parts t₂, t = coldCalls s.placement.table.tee.region.base bytes ++ t₁ ++ t₂ ∧
      Windowed s.placement.config s.placement.table.teePager.region
        s.placement.table.teePaged.region bytes t₁ windows ∧
      Tee.Image.parse bytes s.placement.table.tee.region.base windows
        s.placement.config.reservedRegions = .ok (.split parts) ∧
      ParametersKept (s.withTable (s.placement.table.splitTee parts)) t₂ s' := by
  generalize hResult : (.ok () : Except Error Unit) = result at h
  cases h with
  | resumed _ =>
    refine absurd ?_ hCold
    rw [mem_resumeCalls_iff]
    exact .inr (.inl rfl)
  | @container bytes' t₁ t₂ placed _ _ hPlaced hKept =>
    have hSame : bytes' = bytes := by
      rcases List.mem_append.1 hRead with hRead | hRead
      · rcases List.mem_append.1 hRead with hRead | hRead
        · rcases mem_coldCalls_iff.1 hRead with hRead | hRead <;> cases hRead
          rfl
        · cases hPlaced.asks _ hRead
      · cases hKept.asks _ hRead
    subst hSame
    cases hPlaced with
    | @split _ windows parts hWindowed hParse =>
      exact ⟨t₁, windows, parts, t₂, rfl, hWindowed, hParse, hKept⟩
  | noContainer => cases hResult
  | @monolithic found t₁ _ _ hUnsigned _ hKept =>
    rcases List.mem_cons.1 hRead with hRead | hRead
    · cases hRead
      rw [Option.getD_some, hSigned] at hUnsigned
      cases hUnsigned
    · cases hKept.asks _ hRead
  | noMonolithic => cases hResult

/-- A failure to keep the parameters of this stage does not make a load fail. -/
theorem TeeLoad.accepted_of_saves {s s' : Session} {t : List Exchange} {result : Except Error Unit}
    (h : TeeLoad s t result s') {e : Exchange} (he : e ∈ t)
    (hSaves : e.request = .saveStageParameters) : result = .ok () := by
  cases h with
  | resumed _ => rfl
  | container _ _ _ => rfl
  | @noContainer bytes t₁ _ _ _ hPlaced =>
    rcases List.mem_append.1 he with he | he
    · exact absurd he (not_mem_coldCalls hSaves)
    · rw [hPlaced.asks e he] at hSaves
      cases hSaves
  | monolithic _ _ _ => rfl
  | noMonolithic _ _ =>
    obtain rfl := List.mem_singleton.1 he
    cases hSaves

/-! ## The split -/

/-- A container that can be placed makes of the table what its header says. -/
theorem splitTable_splitTee {header : Tee.Header} {config : Config} {windows : Tee.Windows}
    {parts : Tee.Split} (h : header.Places windows config.reservedRegions parts)
    (table : ImageTable) :
    SplitTable header config.layout table (table.splitTee parts) where
  entry := by simp
  arguments := by simp
  state := h.state_eq
  pagerSize := by simpa using h.declares.1
  pagedSize := by simpa using h.declares.2
  pagerFetched := by
    have hSome : parts.pager.size ≠ 0 := h.pager_size_ne_zero
    simp [hSome, skipsLoading_placePart_of_nonempty]
  pagedFetched := by simpa using skipsLoading_placePart_of_nonempty parts.paged table.teePaged
  pagedLeft := by simpa using placePart_attributes_of_empty parts.paged table.teePaged
  clear r hr := by simpa using h.clear r hr
  apart := by simpa using h.apart
  others _ hTee hPager hPaged := ImageTable.splitTee_get table parts hTee hPager hPaged

/-- At the top of DRAM, the parts lie in the windows that were picked with the header. -/
theorem Windowed.inDramTop {config : Config} {pager paged : Region} {header : Tee.Header}
    {flags : UInt8 × UInt8} {rest : List UInt8} {t : List Exchange} {windows : Tee.Windows}
    {reserved : List Region} {parts : Tee.Split}
    (h : Windowed config pager paged (header.encode flags ++ rest) t windows)
    (hPlaces : header.Places windows reserved parts) (hTop : config.teeWindows = .dramTop) :
    ∃ pager size top, header.segments.filter (·.kind = .pager) = [pager] ∧ ⟨.dramSize, size⟩ ∈ t ∧
      config.layout.dramTopWindow? size = some top ∧
      parts.pager.Within (if config.layout.teePager.Covers pager.address.toNat
        then config.layout.teePager else top) ∧ parts.paged.Within top := by
  obtain ⟨pager, hOnly, hAddress⟩ := hPlaces.exists_pager flags rest
  obtain ⟨size, top, hSize, hWindow, rfl⟩ := h.exists_of_dramTop hTop hAddress
  exact ⟨pager, size, top, hOnly, hSize, hWindow, hPlaces.within⟩

/-- Of the exchanges of such a load, only the last are about the parameters of the stage. -/
theorem Windowed.mem_iff_of_saves {config : Config} {pager paged : Region} {bytes : List UInt8}
    {base : UInt64} {t₁ t₂ : List Exchange} {windows : Tee.Windows}
    (h : Windowed config pager paged bytes t₁ windows) {e : Exchange}
    (hSaves : e.request = .saveStageParameters) :
    e ∈ coldCalls base bytes ++ t₁ ++ t₂ ↔ e ∈ t₂ := by
  have hCold : e ∉ coldCalls base bytes := not_mem_coldCalls hSaves
  have hWindow : e ∉ t₁ := by
    intro he
    rw [h.asks e he] at hSaves
    cases hSaves
  simp only [List.mem_append, hCold, hWindow, false_or]

/-- Once the image was split, the load is what the header says. -/
theorem Windowed.splitCold {s s' : Session} {header : Tee.Header} {flags : UInt8 × UInt8}
    {rest : List UInt8} {t₁ t₂ : List Exchange} {base : UInt64} {windows : Tee.Windows}
    {parts : Tee.Split}
    (h : Windowed s.placement.config s.placement.table.teePager.region
      s.placement.table.teePaged.region (header.encode flags ++ rest) t₁ windows)
    (hPlaces : header.Places windows s.placement.config.reservedRegions parts)
    (hKept : ParametersKept (s.withTable (s.placement.table.splitTee parts)) t₂ s') :
    SplitCold header (coldCalls base (header.encode flags ++ rest) ++ t₁ ++ t₂) s s' := by
  have hTable : s'.placement.table = s.placement.table.splitTee parts := hKept.table_eq
  have hSaves {e : Exchange} (hRequest : e.request = .saveStageParameters) :
      e ∈ coldCalls base (header.encode flags ++ rest) ++ t₁ ++ t₂ ↔ e ∈ t₂ :=
    h.mem_iff_of_saves hRequest
  constructor
  case table =>
    rw [hTable]
    exact splitTable_splitTee hPlaces s.placement.table
  case inFixed =>
    intro hFixed
    have hWithin := hPlaces.within
    rw [h.eq_of_fixed hFixed] at hWithin
    rw [hTable]
    simpa using hWithin
  case inDramTop =>
    intro hTop
    obtain ⟨pager, size, top, hOnly, hSize, hWindow, hIn⟩ := h.inDramTop hPlaces hTop
    have hMem : ⟨.dramSize, size⟩ ∈ coldCalls base (header.encode flags ++ rest) ++ t₁ ++ t₂ :=
      List.mem_append_left t₂ (List.mem_append_right _ hSize)
    refine ⟨pager, size, top, hOnly, hMem, hWindow, ?_⟩
    rw [hTable]
    simpa using hIn
  case kept =>
    rw [hTable]
    refine Iff.trans ?_ hKept.asked_iff
    constructor
    · rintro ⟨e, he, hRequest⟩
      exact ⟨e, (hSaves hRequest).1 he, hRequest⟩
    · rintro ⟨e, he, hRequest⟩
      exact ⟨e, (hSaves hRequest).2 he, hRequest⟩
  case lost =>
    intro fault hMem
    rw [hTable, hKept.eq_withoutParameters ((hSaves rfl).1 hMem)]
    exact ⟨rfl, rfl⟩
  case notLost =>
    intro hNone
    rw [hTable]
    exact hKept.eq_self fun fault hMem => hNone fault ((hSaves rfl).2 hMem)

/-- When a TEE image with the signature is brought in on a board whose DRAM is cold and that is
accepted, the image is a container, and it was split as its header says.  The load does not fail for
want of the parameters of this stage. -/
theorem cold_container_is_split {p : Placement} {log : Log.Ring} {t : List Exchange}
    {result : Except Error Unit} {s' : Session} {base : UInt64} {length : Nat} {bytes : List UInt8}
    (hRuns : Runs (imageLoaded .tee p log) t (result, s'))
    (hRead : ⟨.imageBytes base length, some bytes⟩ ∈ t) (hSigned : Tee.signature <+: bytes)
    (hCold : ⟨.isDramRestored, true⟩ ∉ t) :
    (result = .ok () → ∃ header flags rest, bytes = Tee.Header.encode header flags ++ rest ∧
      header.IsCounted ∧ SplitCold header t ⟨p, log⟩ s') ∧
    ∀ fault, ⟨.saveStageParameters, .error fault⟩ ∈ t → result = .ok () := by
  have hLoad : TeeLoad ⟨p, log⟩ t result s' := teeLoad_of_runs hRuns
  refine ⟨?_, fun fault hMem => hLoad.accepted_of_saves hMem rfl⟩
  rintro rfl
  have hSignature := (Tee.hasSignature_iff bytes).2 hSigned
  obtain ⟨t₁, windows, parts, t₂, rfl, hWindowed, hParse, hKept⟩ :=
    hLoad.exists_split hRead hSignature hCold
  obtain ⟨header, flags, rest, rfl, hPlaces⟩ := (Tee.parse_eq_split_iff parts).1 hParse
  exact ⟨header, flags, rest, rfl, hPlaces.isCounted, hWindowed.splitCold hPlaces hKept⟩

/-- A container with the pager at the base of its window and the paged part behind it. -/
def topContainer : List UInt8 :=
  Tee.Header.encode ⟨.aarch64, [⟨.paged, 0xDE100000, 0x2000⟩, ⟨.pager, Tee.atWindowBase, 0x1000⟩]⟩
    (0, 0)

/-- Replies of a board that has this container and cannot keep the parameters of the stage. -/
def forgetfulReply : (q : Request) → q.Reply
  | .imageBytes _ _ => some topContainer
  | .saveStageParameters => .error .timeout
  | q => usualReply 0 q

/-- The configuration in which the TEE lies at the top of DRAM. -/
def topConfig : Config := { Config.standard with teeWindows := .dramTop }

/-- The board's container is split, the TEE is entered at the base of the secure window, and it is
noted that the parameters of the stage were lost. -/
theorem topContainer_is_split : ∃ t s',
    Runs (imageLoaded .tee (.fresh topConfig) (.empty .info)) t (.ok (), s') ∧
      (∃ header flags rest, topContainer = Tee.Header.encode header flags ++ rest ∧
        header.IsCounted ∧ SplitCold header t ⟨.fresh topConfig, .empty .info⟩ s') ∧
      ⟨.saveStageParameters, .error .timeout⟩ ∈ t ∧
      s'.placement.table.tee.entry.pc = 0xDE000000 ∧
      s'.placement.degraded = [(.tee, .contextSaveFailed)] := by
  obtain ⟨t, ⟨result, s'⟩, hRuns, hSteady, hEnds, hRead, hSaves, hEntry, hDegraded⟩ :=
    Program.exists_runs (steadyBoard forgetfulReply)
      (imageLoaded .tee (.fresh topConfig) (.empty .info)) () (P := fun t ended =>
        Steady forgetfulReply t ∧ ended.1 = .ok () ∧
          (∃ e ∈ t, e.request = .imageBytes 0 Tee.headerCapacity) ∧
          (∃ e ∈ t, e.request = .saveStageParameters) ∧
          ended.2.placement.table.tee.entry.pc = 0xDE000000 ∧
          ended.2.placement.degraded = [(.tee, .contextSaveFailed)])
      ⟨steady_transcript _ _, by decide +kernel⟩
  obtain rfl : result = .ok () := hEnds
  have hCold : ⟨.isDramRestored, true⟩ ∉ t := by
    intro hMem
    cases hSteady _ hMem
  have hSigned : Tee.signature <+: topContainer := by decide +kernel
  obtain ⟨hSplit, -⟩ := cold_container_is_split hRuns (hSteady.mem hRead) hSigned hCold
  exact ⟨t, s', hRuns, hSplit rfl, hSteady.mem hSaves, hEntry, hDegraded⟩

end BootStage.Placement
