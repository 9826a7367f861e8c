import BootStage.Proofs.Boards
import BootStage.Proofs.Placement.TeeLoads

/-!
# Monolithic images and the region of the TEE

An image without the signature runs where it was loaded.  With fixed windows its region grows by the
size of the configuration of the TEE, and it holds the entry point.  What is checked of the growth is
that the sizes add up, not that the end is an address.  So the region is valid after the load exactly
if its base, its size and the size of the configuration add up in 64 bits
(`monolithic_load_grows_region`), and a load can be accepted that leaves a region past the top of the
address space (`accepted_past_top`).
-/

namespace BootStage.Placement

/-- What a monolithic image makes of the region of the TEE. -/
structure MonolithicRegion (config : Config) (table table' : ImageTable) : Prop where
  base : table'.tee.region.base = table.tee.region.base
  nonempty : 0 < table'.tee.region.size.toNat
  /-- With fixed windows the configuration of the TEE is behind the image. -/
  grown : config.teeWindows = .fixed →
    table'.tee.region.size.toNat =
        table.tee.region.size.toNat + table.teeConfig.region.size.toNat ∧
      table'.tee.region.Covers table'.tee.entry.pc.toNat
  /-- The grown region is valid only if its end is an address. -/
  valid : config.teeWindows = .fixed → (table'.tee.region.isValid = true ↔
    table.tee.region.base.toNat +
      (table.tee.region.size.toNat + table.teeConfig.region.size.toNat) < 2 ^ 64)
  kept : config.teeWindows = .dramTop →
    table'.tee.region = table.tee.region ∧ table'.tee.region.isValid = true

/-- An image without the signature is placed as a monolithic one, and nothing that follows changes
the table. -/
theorem TeeLoad.exists_monolithic {s s' : Session} {t : List Exchange} {result : Except Error Unit}
    (h : TeeLoad s t result s')
    (hUnsigned : ∀ base length found, ⟨.imageBytes base length, found⟩ ∈ t →
      Tee.hasSignature (found.getD []) = false) :
    ∃ placed, MonolithicPlaced s.enteringTee result placed ∧
      s'.placement.table = placed.placement.table := by
  -- A container was read with its signature.
  have hNone {bytes : List UInt8} (hSigned : Tee.hasSignature bytes = true)
      (hRead : ⟨.imageBytes s.placement.table.tee.region.base Tee.headerCapacity, some bytes⟩ ∈ t) :
      False := by
    have hNot := hUnsigned _ _ _ hRead
    rw [Option.getD_some, hSigned] at hNot
    cases hNot
  cases h with
  | resumed hSigned =>
    refine (hNone hSigned ?_).elim
    rw [mem_resumeCalls_iff]
    exact .inl rfl
  | container hSigned _ _ =>
    refine (hNone hSigned (List.mem_append_left _ (List.mem_append_left _ ?_))).elim
    exact mem_coldCalls_iff.2 (.inl rfl)
  | noContainer hSigned _ =>
    refine (hNone hSigned (List.mem_append_left _ ?_)).elim
    exact mem_coldCalls_iff.2 (.inl rfl)
  | monolithic _ hPlaced hKept => exact ⟨_, hPlaced, hKept.table_eq⟩
  | noMonolithic _ hPlaced => exact ⟨_, hPlaced, rfl⟩

section MonolithicPlaced

variable {s s' : Session}

/-- A monolithic image is accepted if it has a valid region, and with fixed windows if also the size
of the region and that of the configuration add up. -/
theorem MonolithicPlaced.accepted_iff {result : Except Error Unit}
    (h : MonolithicPlaced s result s') :
    result = .ok () ↔ s.placement.table.tee.region.isValid = true ∧
      (s.placement.config.teeWindows = .fixed →
        s.placement.table.tee.region.size.toNat + s.placement.table.teeConfig.region.size.toNat <
          2 ^ 64) := by
  cases h with
  | noRegion hInvalid => simp [hInvalid]
  | tooLarge hFixed hLarge =>
    simp only [reduceCtorEq, false_iff, not_and, Classical.not_imp, not_lt]
    exact fun _ => ⟨hFixed, hLarge⟩
  | grown hValid _ hFits => exact ⟨fun _ => ⟨hValid, fun _ => hFits⟩, fun _ => rfl⟩
  | atPagerWindow hValid hTop =>
    refine ⟨fun _ => ⟨hValid, fun hFixed => ?_⟩, fun _ => rfl⟩
    cases hTop.symm.trans hFixed

/-- The region of an accepted monolithic image, from the table in which the TEE is entered at the base
of its region. -/
theorem MonolithicPlaced.monolithicRegion (h : MonolithicPlaced s.enteringTee (.ok ()) s') :
    MonolithicRegion s.placement.config s.placement.table s'.placement.table := by
  generalize hResult : (.ok () : Except Error Unit) = result at h
  cases h with
  | noRegion _ => cases hResult
  | tooLarge _ _ => cases hResult
  | grown hValid hFixed hFits =>
    have hPos : 0 < s.placement.table.tee.region.size.toNat := (Region.isValid_iff.1 hValid).1
    have hSize := Region.toNat_grown_size hFits
    constructor
    case base => rfl
    case nonempty => exact hSize ▸ Nat.add_pos_left hPos _
    case grown => exact fun _ => ⟨hSize, Region.covers_base_grown hValid hFits⟩
    case valid => exact fun _ => Region.isValid_grown_iff hValid hFits
    case kept =>
      intro hTop
      cases hFixed.symm.trans hTop
  | atPagerWindow hValid hTop =>
    have hNotFixed : s.placement.config.teeWindows ≠ .fixed := by
      intro hFixed
      cases hTop.symm.trans hFixed
    constructor
    case base => rfl
    case nonempty => exact (Region.isValid_iff.1 hValid).1
    case grown => exact fun hFixed => absurd hFixed hNotFixed
    case valid => exact fun hFixed => absurd hFixed hNotFixed
    case kept => exact fun _ => ⟨rfl, hValid⟩

end MonolithicPlaced

/-- When a TEE image without the signature is brought in, the load is accepted exactly if the TEE has
a valid region and, with fixed windows, the sizes of the region and of the configuration add up.  The
region is not empty then and, with fixed windows, has grown by the size of the configuration and
holds the entry point.  It is valid as long as it was not grown past the top of the address space. -/
theorem monolithic_load_grows_region {p : Placement} {log : Log.Ring} {t : List Exchange}
    {result : Except Error Unit} {s' : Session}
    (hRuns : Runs (imageLoaded .tee p log) t (result, s'))
    (hUnsigned : ∀ base length found, ⟨.imageBytes base length, found⟩ ∈ t →
      ¬ Tee.signature <+: found.getD []) :
    (result = .ok () ↔ p.table.tee.region.isValid = true ∧ (p.config.teeWindows = .fixed →
      p.table.tee.region.size.toNat + p.table.teeConfig.region.size.toNat < 2 ^ 64)) ∧
    (result = .ok () → MonolithicRegion p.config p.table s'.placement.table) := by
  have hLoad : TeeLoad ⟨p, log⟩ t result s' := teeLoad_of_runs hRuns
  have hNone : ∀ base length found, ⟨.imageBytes base length, found⟩ ∈ t →
      Tee.hasSignature (found.getD []) = false := by
    intro base length found hRead
    rw [Bool.eq_false_iff, ne_eq, Tee.hasSignature_iff]
    exact hUnsigned base length found hRead
  obtain ⟨placed, hPlaced, hTable⟩ := hLoad.exists_monolithic hNone
  refine ⟨hPlaced.accepted_iff, ?_⟩
  rintro rfl
  rw [hTable]
  exact hPlaced.monolithicRegion

/-- A placement in which the TEE and its configuration have these regions. -/
def withTeeRegions (tee teeConfig : Region) : Placement :=
  { Placement.fresh .standard with
    table := (ImageTable.unresolved.update .tee fun d => { d with region := tee }).update .teeConfig
      fun d => { d with region := teeConfig } }

/-- A board that has no image bytes to read brings in a TEE without the signature. -/
theorem exists_unsigned_load (p : Placement) {P : Except Error Unit × Session → Prop}
    (h : P ((imageLoaded .tee p (.empty .info)).exec (steadyBoard (usualReply 0)) ()).1) :
    ∃ t result s', Runs (imageLoaded .tee p (.empty .info)) t (result, s') ∧ P (result, s') ∧
      ∀ base length found, ⟨.imageBytes base length, found⟩ ∈ t →
        ¬ Tee.signature <+: found.getD [] := by
  refine ⟨_, _, _, Program.runs_transcript _ _ (), h, ?_⟩
  intro base length found hRead
  obtain rfl : found = none := steady_transcript _ _ _ hRead
  decide

/-- The TEE at the start of the on-chip memory, and its configuration behind it. -/
theorem tee_grows_in_sram : ∃ t s',
    Runs (imageLoaded .tee (withTeeRegions (.window 0x2FFC0000 0x10000) (.window 0x2FFD0000 0x1000))
      (.empty .info)) t (.ok (), s') ∧
    s'.placement.table.tee.region.size.toNat = 0x11000 ∧
    s'.placement.table.tee.region.isValid = true ∧
    s'.placement.table.tee.region.Covers s'.placement.table.tee.entry.pc.toNat := by
  obtain ⟨t, result, s', hRuns, -, hUnsigned⟩ := exists_unsigned_load
    (withTeeRegions (.window 0x2FFC0000 0x10000) (.window 0x2FFD0000 0x1000))
    (P := fun _ => True) trivial
  obtain ⟨hAccepted, hRegion⟩ := monolithic_load_grows_region hRuns hUnsigned
  obtain rfl : result = .ok () := hAccepted.2 (by decide)
  obtain ⟨hSize, hEntry⟩ := (hRegion rfl).grown rfl
  exact ⟨t, s', hRuns, hSize, ((hRegion rfl).valid rfl).2 (by decide), hEntry⟩

/-- Near the top of the address space, an accepted load leaves the TEE a region that is not valid. -/
theorem accepted_past_top : ∃ t s',
    Runs (imageLoaded .tee
      (withTeeRegions (.window 0xFFFFFFFFFFFF0000 0x8000) (.window 0x2FFFE000 0x10000))
      (.empty .info)) t (.ok (), s') ∧
    (∀ base length found, ⟨.imageBytes base length, found⟩ ∈ t →
      ¬ Tee.signature <+: found.getD []) ∧
    s'.placement.table.tee.region.isValid = false := by
  obtain ⟨t, result, s', hRuns, ⟨hEnds, hInvalid⟩, hUnsigned⟩ := exists_unsigned_load
    (withTeeRegions (.window 0xFFFFFFFFFFFF0000 0x8000) (.window 0x2FFFE000 0x10000))
    (P := fun ended => ended.1 = .ok () ∧ ended.2.placement.table.tee.region.isValid = false)
    (by decide +kernel)
  obtain rfl : result = .ok () := hEnds
  exact ⟨t, s', hRuns, hUnsigned, hInvalid⟩

end BootStage.Placement
