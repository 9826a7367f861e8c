import BootStage.Proofs.Placement.Resume
import BootStage.Proofs.Tee.Parse

/-!
# Every way in which the TEE is brought in

`TeeLoad` lists what may happen when the TEE is brought in, with the exchanges, the result and the
session that is left, and `ensures_placeTee` says that there is nothing else.  The parts that several
ways share have relations of their own: where the windows of a container come from (`Windowed`), how
a container or a monolithic image changes the table (`ContainerPlaced`, `MonolithicPlaced`), and what
is done to keep the parameters of this stage (`ParametersKept`).

    the signature, DRAM restored   the TEE resumes
    the signature, DRAM lost       no window, refused by the parser, or split
    no signature                   no region, too large, or monolithic
-/

namespace BootStage

namespace ImageTable

/-- The table in which the TEE is entered at `pc`. -/
def enteringTee (t : ImageTable) (pc : UInt64) : ImageTable :=
  t.update .tee fun d => { d with entry := { d.entry with pc } }

/-- The table with the parts of a container in place. -/
def splitTee (t : ImageTable) (parts : Tee.Split) : ImageTable :=
  let entered := t.update .tee fun d =>
    { d with entry :=
      { d.entry with
        pc := parts.entryPoint, state := parts.state, arg0 := parts.paged.base, arg1 := 0, arg2 := 0 } }
  (entered.update .teePager (Placement.placePart parts.pager)).update .teePaged
    (Placement.placePart parts.paged)

@[simp]
theorem splitTee_entry (t : ImageTable) (parts : Tee.Split) :
    (t.splitTee parts).tee.entry =
      { t.tee.entry with
        pc := parts.pager.base, state := parts.state, arg0 := parts.paged.base, arg1 := 0, arg2 := 0 } :=
  rfl

@[simp]
theorem splitTee_teePager (t : ImageTable) (parts : Tee.Split) :
    (t.splitTee parts).teePager = Placement.placePart parts.pager t.teePager := rfl

@[simp]
theorem splitTee_teePaged (t : ImageTable) (parts : Tee.Split) :
    (t.splitTee parts).teePaged = Placement.placePart parts.paged t.teePaged := rfl

/-- Only the TEE and its two parts change. -/
theorem splitTee_get (t : ImageTable) (parts : Tee.Split) {image : ImageId} (hTee : image ≠ .tee)
    (hPager : image ≠ .teePager) (hPaged : image ≠ .teePaged) :
    (t.splitTee parts).get image = t.get image := by
  unfold splitTee
  rw [get_update, if_neg hPaged.symm, get_update, if_neg hPager.symm, get_update, if_neg hTee.symm]

/-- The table in which the region of the TEE has grown by `extra` bytes. -/
def growingTee (t : ImageTable) (extra : UInt64) : ImageTable :=
  t.update .tee fun d => { d with region := d.region.grown extra }

/-- The table in which the TEE has no first argument. -/
def clearingArgument (t : ImageTable) : ImageTable :=
  t.update .tee fun d => { d with entry := { d.entry with arg0 := 0 } }

end ImageTable

namespace Placement

/-- The session with another table. -/
def Session.withTable (s : Session) (table : ImageTable) : Session :=
  { s with placement := { s.placement with table } }

theorem addDegraded_table (p : Placement) (image : ImageId) (e : Error) :
    (p.addDegraded image e).table = p.table := by
  unfold addDegraded
  split <;> rfl

/-- The session in which a failure to keep the parameters of this stage was noted. -/
def Session.withoutParameters (s : Session) (fault : DriverFault) : Session where
  placement := s.placement.addDegraded .tee .contextSaveFailed
  log := s.log.record .warning Log.stageSource ["Cannot save stage parameters: ", fault.message]

/-- The session in which the TEE is entered at the base of its region. -/
def Session.enteringTee (s : Session) : Session :=
  s.withTable (s.placement.table.enteringTee s.placement.table.tee.region.base)

section PlacePart

variable (region : Region) (d : Descriptor)

@[simp]
theorem placePart_region : (placePart region d).region = region := by
  unfold placePart
  split <;> rfl

@[simp]
theorem placePart_imageSize : (placePart region d).imageSize = region.size := by
  unfold placePart
  split <;> rfl

theorem placePart_attributes_of_empty (h : region.size = 0) :
    (placePart region d).attributes = d.attributes := by
  simp [placePart, h]

theorem skipsLoading_placePart_of_nonempty (h : region.size ≠ 0) :
    (placePart region d).skipsLoading = false := by
  rw [placePart, if_neg h]
  exact Descriptor.skipsLoading_fetch _

end PlacePart

/-! ## Rules -/

section Rules

variable {s : Session} {α : Type} {Q : List Exchange → Except Error α → Session → Prop}

theorem ensures_config_bind {f : Config → Placing α} :
    Ensures (Placing.config >>= f) s Q ↔ Ensures (f s.placement.config) s Q :=
  ensures_bind.trans (ensures_get_bind.trans ensures_pure)

theorem ensures_table_bind {f : ImageTable → Placing α} :
    Ensures (Placing.table >>= f) s Q ↔ Ensures (f s.placement.table) s Q :=
  ensures_bind.trans (ensures_get_bind.trans ensures_pure)

end Rules

/-! ## Containers -/

/-- Where the windows for the parts of a container come from, and what is asked for them. -/
inductive Windowed (config : Config) (pager paged : Region) (bytes : List UInt8) :
    List Exchange → Tee.Windows → Prop
  | fixed : config.teeWindows = .fixed → Windowed config pager paged bytes [] ⟨pager, paged⟩
  | dramTop {size : UInt64} {top : Region} : config.teeWindows = .dramTop →
      config.layout.dramTopWindow? size = some top →
      Windowed config pager paged bytes [⟨.dramSize, size⟩]
        ⟨if (Tee.pagerAddress? bytes).any config.layout.teePager.contains
          then config.layout.teePager else top, top⟩

/-- How the placement of a container goes that was loaded at `base`. -/
inductive ContainerPlaced (s : Session) (bytes : List UInt8) (base : UInt64) :
    List Exchange → Except Error Unit → Session → Prop
  | noWindow {size : UInt64} : s.placement.config.teeWindows = .dramTop →
      s.placement.config.layout.dramTopWindow? size = none →
      ContainerPlaced s bytes base [⟨.dramSize, size⟩] (.error .invalidRegion) s
  | refused {t : List Exchange} {windows : Tee.Windows} :
      Windowed s.placement.config s.placement.table.teePager.region
        s.placement.table.teePaged.region bytes t windows →
      Tee.Image.parse bytes base windows s.placement.config.reservedRegions =
        .error .teeHeaderInvalid →
      ContainerPlaced s bytes base t (.error .teeHeaderInvalid)
        { s with log := s.log.record .error Log.stageSource ["OPTEE header parse error."] }
  | split {t : List Exchange} {windows : Tee.Windows} {parts : Tee.Split} :
      Windowed s.placement.config s.placement.table.teePager.region
        s.placement.table.teePaged.region bytes t windows →
      Tee.Image.parse bytes base windows s.placement.config.reservedRegions = .ok (.split parts) →
      ContainerPlaced s bytes base t (.ok ()) (s.withTable (s.placement.table.splitTee parts))

section Windowed

variable {config : Config} {pager paged : Region} {bytes : List UInt8} {t : List Exchange}
  {windows : Tee.Windows}

theorem Windowed.asks (h : Windowed config pager paged bytes t windows) :
    ∀ e ∈ t, e.request = .dramSize := by
  cases h <;> simp

theorem Windowed.eq_of_fixed (h : Windowed config pager paged bytes t windows)
    (hFixed : config.teeWindows = .fixed) : windows = ⟨pager, paged⟩ := by
  cases h with
  | fixed _ => rfl
  | dramTop hTop _ => cases hTop.symm.trans hFixed

theorem Windowed.exists_of_dramTop (h : Windowed config pager paged bytes t windows)
    (hTop : config.teeWindows = .dramTop) {address : UInt64}
    (hAddress : Tee.pagerAddress? bytes = some address) :
    ∃ size top, ⟨.dramSize, size⟩ ∈ t ∧ config.layout.dramTopWindow? size = some top ∧
      windows = ⟨if config.layout.teePager.Covers address.toNat then config.layout.teePager
        else top, top⟩ := by
  cases h with
  | fixed hFixed => cases hTop.symm.trans hFixed
  | @dramTop size top _ hWindow =>
    refine ⟨size, top, List.mem_singleton_self _, hWindow, ?_⟩
    rw [hAddress, Option.any_some]
    simp only [Region.contains_iff_covers]

end Windowed

theorem ContainerPlaced.asks {s s' : Session} {bytes : List UInt8} {base : UInt64}
    {t : List Exchange} {x : Except Error Unit} (h : ContainerPlaced s bytes base t x s') :
    ∀ e ∈ t, e.request = .dramSize := by
  cases h with
  | noWindow => simp
  | refused hWindowed => exact hWindowed.asks
  | split hWindowed => exact hWindowed.asks

theorem ensures_teeWindows (s : Session) (bytes : List UInt8) :
    Ensures (teeWindows bytes) s fun t x s' => s' = s ∧
      ((∃ windows, x = .ok windows ∧ Windowed s.placement.config s.placement.table.teePager.region
          s.placement.table.teePaged.region bytes t windows) ∨
        ∃ size, s.placement.config.teeWindows = .dramTop ∧
          s.placement.config.layout.dramTopWindow? size = none ∧ t = [⟨.dramSize, size⟩] ∧
            x = .error .invalidRegion) := by
  unfold teeWindows
  rw [ensures_config_bind]
  cases hWindows : s.placement.config.teeWindows with
  | fixed =>
    refine ensures_table_bind.2 (ensures_pure.2 ⟨rfl, .inl ⟨_, rfl, .fixed hWindows⟩⟩)
  | dramTop =>
    unfold Placing.dramTopWindow
    simp only [bind_assoc]
    refine ensures_config_bind.2 (ensures_ask_bind.2 fun size => ?_)
    cases hTop : s.placement.config.layout.dramTopWindow? size with
    | some top =>
      refine ensures_bind.2 (ensures_pure.2 (ensures_pure.2 ?_))
      exact ⟨rfl, .inl ⟨_, rfl, .dramTop hWindows hTop⟩⟩
    | none =>
      refine ensures_bind.2 (ensures_throw.2 ?_)
      exact ⟨rfl, .inr ⟨size, trivial, hTop, rfl, rfl⟩⟩

theorem ensures_placeContainer (s : Session) {bytes : List UInt8} (base : UInt64)
    (hSigned : Tee.hasSignature bytes = true) :
    Ensures (placeContainer bytes base) s fun t x s' => ContainerPlaced s bytes base t x s' := by
  refine ensures_bind.2 ((ensures_teeWindows s bytes).mono ?_)
  rintro t x s' ⟨rfl, ⟨windows, rfl, hWindowed⟩ | ⟨size, hWindows, hTop, rfl, rfl⟩⟩
  · refine ensures_config_bind.2 ?_
    cases hParse : Tee.Image.parse bytes base windows s'.placement.config.reservedRegions with
    | error e =>
      obtain rfl := Tee.eq_teeHeaderInvalid_of_parse_eq_error hParse
      refine ensures_modify_bind.2 (ensures_throw.2 ?_)
      rw [List.append_nil]
      exact .refused hWindowed hParse
    | ok image =>
      cases image with
      | monolithic address =>
        -- Only an image without the signature is monolithic.
        have hUnsigned := ((Tee.parse_eq_monolithic_iff address).1 hParse).1
        exact absurd ((Tee.hasSignature_iff bytes).1 hSigned) hUnsigned
      | split parts =>
        refine ensures_modify_bind.2 (ensures_modify_bind.2 (ensures_modify.2 ?_))
        rw [List.append_nil]
        exact .split hWindowed hParse
  · exact .noWindow hWindows hTop

/-! ## Monolithic images -/

/-- How the placement of a monolithic image goes. -/
inductive MonolithicPlaced (s : Session) : Except Error Unit → Session → Prop
  | noRegion : s.placement.table.tee.region.isValid = false →
      MonolithicPlaced s (.error .noTeeEntryPoint) s
  | tooLarge : s.placement.config.teeWindows = .fixed →
      0x10000000000000000 ≤
        s.placement.table.tee.region.size.toNat + s.placement.table.teeConfig.region.size.toNat →
      MonolithicPlaced s (.error .invalidRegion) s
  | grown : s.placement.table.tee.region.isValid = true → s.placement.config.teeWindows = .fixed →
      s.placement.table.tee.region.size.toNat + s.placement.table.teeConfig.region.size.toNat <
        0x10000000000000000 →
      MonolithicPlaced s (.ok ()) (s.withTable (s.placement.table.growingTee
        s.placement.table.teeConfig.region.size).clearingArgument)
  | atPagerWindow : s.placement.table.tee.region.isValid = true →
      s.placement.config.teeWindows = .dramTop →
      MonolithicPlaced s (.ok ()) (s.withTable (s.placement.table.enteringTee
        s.placement.config.layout.teePager.base).clearingArgument)

theorem ensures_placeMonolithic (s : Session) :
    Ensures placeMonolithic s fun t x s' => t = [] ∧ MonolithicPlaced s x s' := by
  refine ensures_table_bind.2 ?_
  cases hValid : s.placement.table.tee.region.isValid with
  | false =>
    rw [if_pos Bool.false_ne_true]
    exact ensures_bind.2 (ensures_throw.2 ⟨rfl, .noRegion hValid⟩)
  | true =>
    rw [if_neg (not_not_intro rfl)]
    refine ensures_config_bind.2 ?_
    cases hWindows : s.placement.config.teeWindows with
    | fixed =>
      refine ensures_bind.2 (ensures_table_bind.2 ?_)
      dsimp only
      split
      · next hFits =>
        refine ensures_modify.2 (ensures_modify.2 ⟨rfl, ?_⟩)
        exact .grown hValid hWindows hFits
      · next hLarge =>
        refine ensures_throw.2 ⟨rfl, .tooLarge hWindows ?_⟩
        omega
    | dramTop =>
      refine ensures_modify_bind.2 (ensures_modify.2 ⟨rfl, ?_⟩)
      exact .atPagerWindow hValid hWindows

/-! ## The parameters of this stage -/

/-- The parameters of this stage are kept for a TEE that is entered in DRAM, if they can be. -/
inductive ParametersKept (s : Session) : List Exchange → Session → Prop
  | elsewhere : s.placement.config.layout.isDramAddress s.placement.table.tee.entry.pc = false →
      ParametersKept s [] s
  | kept : s.placement.config.layout.isDramAddress s.placement.table.tee.entry.pc = true →
      ParametersKept s [⟨.saveStageParameters, .ok ()⟩] s
  | lost (fault : DriverFault) :
      s.placement.config.layout.isDramAddress s.placement.table.tee.entry.pc = true →
      ParametersKept s [⟨.saveStageParameters, .error fault⟩] (s.withoutParameters fault)

section ParametersKept

variable {s s' : Session} {t : List Exchange}

theorem ParametersKept.asks (h : ParametersKept s t s') :
    ∀ e ∈ t, e.request = .saveStageParameters := by
  cases h <;> simp

theorem ParametersKept.asked_iff (h : ParametersKept s t s') :
    (∃ e ∈ t, e.request = .saveStageParameters) ↔
      s.placement.config.layout.isDramAddress s.placement.table.tee.entry.pc = true := by
  cases h <;> simp_all

theorem ParametersKept.table_eq (h : ParametersKept s t s') :
    s'.placement.table = s.placement.table := by
  cases h with
  | elsewhere _ => rfl
  | kept _ => rfl
  | lost _ _ => exact addDegraded_table _ _ _

/-- A failure to keep the parameters is noted, and that is all that it does. -/
theorem ParametersKept.eq_withoutParameters (h : ParametersKept s t s') {fault : DriverFault}
    (hMem : ⟨.saveStageParameters, .error fault⟩ ∈ t) : s' = s.withoutParameters fault := by
  cases h <;> simp_all

theorem ParametersKept.eq_self (h : ParametersKept s t s')
    (hNone : ∀ fault, ⟨.saveStageParameters, .error fault⟩ ∉ t) : s' = s := by
  cases h <;> simp_all

end ParametersKept

theorem ensures_keepParameters (s : Session) :
    Ensures keepParameters s fun t x s' => x = .ok () ∧ ParametersKept s t s' := by
  refine ensures_table_bind.2 (ensures_config_bind.2 ?_)
  cases hDram : s.placement.config.layout.isDramAddress s.placement.table.tee.entry.pc with
  | false =>
    rw [if_neg Bool.false_ne_true]
    exact ensures_pure.2 ⟨rfl, .elsewhere hDram⟩
  | true =>
    rw [if_pos rfl]
    refine ensures_ask_bind.2 fun reply => ?_
    cases reply with
    | ok _ => exact ensures_pure.2 ⟨rfl, .kept hDram⟩
    | error fault =>
      refine ensures_modify_bind.2 (ensures_modify.2 ⟨rfl, ?_⟩)
      exact .lost fault hDram

/-! ## The whole load -/

/-- What is asked first of an image with the signature, when DRAM lost its content. -/
def coldCalls (base : UInt64) (bytes : List UInt8) : List Exchange :=
  [⟨.imageBytes base Tee.headerCapacity, some bytes⟩, ⟨.isDramRestored, false⟩]

theorem mem_coldCalls_iff {base : UInt64} {bytes : List UInt8} {e : Exchange} :
    e ∈ coldCalls base bytes ↔
      e = ⟨.imageBytes base Tee.headerCapacity, some bytes⟩ ∨ e = ⟨.isDramRestored, false⟩ := by
  unfold coldCalls
  simp

/-- Nothing is saved before the image is looked at. -/
theorem not_mem_coldCalls {base : UInt64} {bytes : List UInt8} {e : Exchange}
    (hSaves : e.request = .saveStageParameters) : e ∉ coldCalls base bytes := by
  rw [mem_coldCalls_iff]
  rintro (rfl | rfl) <;> cases hSaves

/-- Every way in which bringing in the TEE can go. -/
inductive TeeLoad (s : Session) : List Exchange → Except Error Unit → Session → Prop
  | resumed {bytes : List UInt8} {pc : UInt64} : Tee.hasSignature bytes = true →
      TeeLoad s
        (resumeCalls s.placement.config.layout s.placement.table.tee.region.base pc (some bytes))
        (.ok ()) (s.withTable (s.placement.table.enteringTee pc))
  | container {bytes : List UInt8} {t t' : List Exchange} {placed s' : Session} :
      Tee.hasSignature bytes = true →
      ContainerPlaced s.enteringTee bytes s.placement.table.tee.region.base t (.ok ()) placed →
      ParametersKept placed t' s' →
      TeeLoad s (coldCalls s.placement.table.tee.region.base bytes ++ t ++ t') (.ok ()) s'
  | noContainer {bytes : List UInt8} {t : List Exchange} {e : Error} {s' : Session} :
      Tee.hasSignature bytes = true →
      ContainerPlaced s.enteringTee bytes s.placement.table.tee.region.base t (.error e) s' →
      TeeLoad s (coldCalls s.placement.table.tee.region.base bytes ++ t) (.error e) s'
  | monolithic {found : Option (List UInt8)} {t : List Exchange} {placed s' : Session} :
      Tee.hasSignature (found.getD []) = false → MonolithicPlaced s.enteringTee (.ok ()) placed →
      ParametersKept placed t s' →
      TeeLoad s (⟨.imageBytes s.placement.table.tee.region.base Tee.headerCapacity, found⟩ :: t)
        (.ok ()) s'
  | noMonolithic {found : Option (List UInt8)} {e : Error} {s' : Session} :
      Tee.hasSignature (found.getD []) = false → MonolithicPlaced s.enteringTee (.error e) s' →
      TeeLoad s [⟨.imageBytes s.placement.table.tee.region.base Tee.headerCapacity, found⟩]
        (.error e) s'

theorem ensures_resumeTee (s : Session) (base : UInt64) (found : Option (List UInt8)) :
    Ensures resumeTee s fun t x s' => x = .ok () ∧ ∃ pc,
      ⟨.imageBytes base Tee.headerCapacity, found⟩ :: ⟨.isDramRestored, true⟩ :: t =
          resumeCalls s.placement.config.layout base pc found ∧
        s' = s.withTable (s.placement.table.enteringTee pc) := by
  refine ensures_ask_bind.2 fun pc => ensures_modify_bind.2 (ensures_config_bind.2 ?_)
  dsimp only
  unfold resumeCalls
  split
  · next hBackup =>
    refine ensures_lift.2 fun t reply hRuns => ?_
    rw [runs_ask_iff.1 hRuns]
    refine ⟨rfl, pc, ?_, rfl⟩
    rw [if_pos hBackup]
    rfl
  · next hBackup =>
    refine ensures_pure.2 ⟨rfl, pc, ?_, rfl⟩
    rw [if_neg hBackup]
    rfl

theorem exists_of_hasSignature {found : Option (List UInt8)}
    (h : Tee.hasSignature (found.getD []) = true) :
    ∃ bytes, found = some bytes ∧ Tee.hasSignature bytes = true := by
  cases found with
  | none => cases h
  | some bytes => exact ⟨bytes, rfl, h⟩

theorem ensures_placeTee (s : Session) :
    Ensures placeTee s fun t x s' => TeeLoad s t x s' := by
  refine ensures_table_bind.2 (ensures_modify_bind.2 ?_)
  show Ensures _ s.enteringTee _
  refine ensures_ask_bind.2 fun found => ?_
  dsimp only
  split
  · next hSigned =>
    obtain ⟨bytes, rfl, hSignature⟩ := exists_of_hasSignature hSigned
    refine ensures_ask_bind.2 fun restored => ?_
    cases restored with
    | true =>
      rw [if_pos rfl]
      have hResumes := ensures_resumeTee s.enteringTee s.placement.table.tee.region.base (some bytes)
      refine hResumes.mono ?_
      rintro t x s' ⟨rfl, pc, hCalls, rfl⟩
      rw [hCalls]
      exact .resumed hSignature
    | false =>
      rw [if_neg Bool.false_ne_true]
      refine ensures_bind.2 ((ensures_placeContainer s.enteringTee _ hSignature).mono ?_)
      intro t x placed hPlaced
      cases x with
      | error e => exact .noContainer hSignature hPlaced
      | ok _ =>
        refine (ensures_keepParameters placed).mono ?_
        rintro t' y s' ⟨rfl, hKept⟩
        have hLoad := TeeLoad.container hSignature hPlaced hKept
        rwa [List.append_assoc] at hLoad
  · next hUnsigned =>
    have hUnsigned' : Tee.hasSignature (found.getD []) = false := by simpa using hUnsigned
    refine ensures_bind.2 ((ensures_placeMonolithic s.enteringTee).mono ?_)
    rintro t x placed ⟨rfl, hPlaced⟩
    cases x with
    | error e => exact .noMonolithic hUnsigned' hPlaced
    | ok _ =>
      refine (ensures_keepParameters placed).mono ?_
      rintro t y s' ⟨rfl, hKept⟩
      exact .monolithic hUnsigned' hPlaced hKept

theorem teeLoad_of_runs {p : Placement} {log : Log.Ring} {t : List Exchange}
    {result : Except Error Unit} {s' : Session}
    (h : Runs (imageLoaded .tee p log) t (result, s')) : TeeLoad ⟨p, log⟩ t result s' :=
  ensures_placeTee ⟨p, log⟩ t result s' h

end Placement

end BootStage
