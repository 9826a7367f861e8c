import BootStage.Proofs.Placement.Loads
import BootStage.Proofs.Placement.Origin
import BootStage.Proofs.Tee.Parse

/-!
# Images and the reserved regions

Whatever images the loader brings in, and in whatever order, an image that is fetched is clear of
the reserved regions unless its region was offered by the board (`fetched_clear_or_offered`).  The
parts of a container are checked; what the firmware configuration says, the top of DRAM and a
monolithic TEE that has grown are not, and so an image can be placed over the stage itself
(`fetched_over_stage`).
-/

namespace BootStage

open Placement

variable {config : Config} {known : List Exchange}

/-! ## The firmware configuration -/

theorem keeps_applyRole {image : ImageId} {place : ImagePlace} (restored : Bool)
    (hEntry : ⟨.imagePlace image, some place⟩ ∈ known) :
    Keeps config known (applyRole image place restored) := by
  cases image with
  | tee =>
    refine keeps_bind (keeps_enterAt _ _) fun _ => ?_
    refine keeps_bind (keeps_setRegion (.offered nofun (.pagerEntry hEntry))) fun _ => ?_
    refine keeps_dramTopWindow_bind fun size window hTop => ?_
    exact keeps_setRegion (.offered nofun (.dramTop List.mem_cons_self hTop))
  | nonSecureFirmware => exact keeps_enterAt _ _
  | hardwareConfig => exact keeps_pure ()
  | teeConfig => exact keeps_pure ()
  | firmwareConfig => exact keeps_bind (keeps_note _ _) fun _ => keeps_throw _
  | teePager => exact keeps_bind (keeps_note _ _) fun _ => keeps_throw _
  | teePaged => exact keeps_bind (keeps_note _ _) fun _ => keeps_throw _

theorem keeps_applyEntry {image : ImageId} {place : ImagePlace} (restored : Bool)
    (hImage : image ∈ describedImages) (hEntry : ⟨.imagePlace image, some place⟩ ∈ known) :
    Keeps config known (applyEntry image place restored) := by
  have hOther : image ≠ .firmwareConfig := fun hSame => by
    rw [hSame] at hImage
    revert hImage
    decide
  refine keeps_config_bind ?_
  refine keeps_bind (keeps_setRegion (.offered hOther (.entry hEntry))) fun _ => ?_
  have hRest : Keeps config known (do
      Placing.note .debug [image.name, " at ", (Region.window place.address place.maxSize).describe]
      applyRole image place restored) :=
    keeps_bind (keeps_note _ _) fun _ => keeps_applyRole restored hEntry
  split
  · exact keeps_bind (keeps_update (fun _ => rfl) fun hSame => absurd hSame hOther) fun _ => hRest
  · exact hRest

theorem keeps_applyEntries (restored : Bool) {images : List ImageId}
    (hImages : images ⊆ describedImages) : Keeps config known (applyEntries restored images) := by
  induction images generalizing known with
  | nil => exact keeps_pure ()
  | cons image images ih =>
    have hImage : image ∈ describedImages := hImages List.mem_cons_self
    have hRest : images ⊆ describedImages := fun i hi => hImages (List.mem_cons_of_mem image hi)
    refine keeps_ask_bind fun found => ?_
    cases found with
    | none => exact ih hRest
    | some place =>
      exact keeps_bind (keeps_applyEntry restored hImage List.mem_cons_self) fun _ => ih hRest

theorem keeps_placeFirmwareConfig : Keeps config known placeFirmwareConfig := by
  refine keeps_config_bind ?_
  refine keeps_ask_bind fun reply => ?_
  cases reply with
  | error _ => exact keeps_throw _
  | ok _ =>
    refine keeps_bind (keeps_setRegion .own) fun _ => ?_
    exact keeps_ask_bind fun restored => keeps_applyEntries restored (List.Subset.refl _)

/-! ## The TEE -/

/-- The parts of a container are clear of the reserved regions. -/
theorem Tee.Header.Places.clear {h : Tee.Header} {windows : Tee.Windows} {reserved : List Region}
    {parts : Tee.Split} (hPlaces : h.Places windows reserved parts) :
    ∀ r ∈ reserved, parts.pager.Apart r ∧ parts.paged.Apart r := by
  intro r hr
  cases hPlaces with
  | pagerOnly _ _ hpLoads =>
    refine ⟨fun a ha => hpLoads.clear r hr a ((hpLoads.covers_iff _ a).1 ha), fun a ha => ?_⟩
    exact absurd ha (Region.not_covers_of_size_eq_zero rfl a)
  | both _ _ _ hpLoads hqLoads _ =>
    exact ⟨fun a ha => hpLoads.clear r hr a ((hpLoads.covers_iff _ a).1 ha),
      fun a ha => hqLoads.clear r hr a ((hqLoads.covers_iff _ a).1 ha)⟩

theorem keeps_teeWindows (bytes : List UInt8) : Keeps config known (teeWindows bytes) := by
  refine keeps_config_bind ?_
  cases config.teeWindows with
  | fixed => exact keeps_table_bind fun _ => keeps_pure _
  | dramTop => exact keeps_dramTopWindow_bind fun _ _ _ => keeps_pure _

theorem keeps_placePart {image : ImageId} {region : Region} (hOther : image ≠ .firmwareConfig)
    (hPart : Origin config known image region) :
    Keeps config known (Placing.update image (placePart region)) := fun seen s hKnown h =>
  ensures_modify.2 (by
    rw [List.append_nil]
    refine h.update ?_ fun hSame => absurd hSame hOther
    have hRegion : (placePart region (s.placement.table.get image)).region = region := by
      unfold placePart
      split <;> rfl
    rw [hRegion]
    exact hPart.mono hKnown)

theorem keeps_placeSplit {parts : Tee.Split}
    (hClear : ∀ r ∈ config.reservedRegions, parts.pager.Apart r ∧ parts.paged.Apart r) :
    Keeps config known (placeSplit parts) := by
  refine keeps_bind (keeps_update (fun _ => rfl) fun _ _ => rfl) fun _ => ?_
  refine keeps_bind (keeps_placePart nofun (.pagerPart fun r hr => (hClear r hr).1)) fun _ => ?_
  exact keeps_placePart nofun (.pagedPart fun r hr => (hClear r hr).2)

/-- The region of a TEE that was placed was offered, and so is what it grows to. -/
theorem Placement.Traced.offered_grown {seen : List Exchange} {p : Placement}
    (h : Traced config seen p) (hFixed : config.teeWindows = .fixed)
    (hValid : p.table.tee.region.isValid = true) :
    Offered config seen .tee
      { p.table.tee.region with
        size := p.table.tee.region.size + p.table.teeConfig.region.size } := by
  have hRegion : Offered config seen .tee p.table.tee.region := by
    have hOrigin : Origin config seen .tee p.table.tee.region := h.origin .tee
    generalize p.table.tee.region = region at hOrigin hValid
    cases hOrigin with
    | unresolved _ => cases hValid
    | offered _ hOffered => exact hOffered
  have hExtra : Origin config seen .teeConfig p.table.teeConfig.region := h.origin .teeConfig
  generalize p.table.teeConfig.region = extra at hExtra
  cases hExtra with
  | unresolved _ =>
    have hSame : p.table.tee.region.size + (Region.window 0 0).size = p.table.tee.region.size :=
      UInt64.add_zero _
    rw [hSame]
    exact hRegion
  | offered _ hOffered => exact .grown hFixed hRegion hOffered

theorem keepsAt_growByConfig {seen : List Exchange} {s : Placement.Session}
    (h : Traced config seen s.placement) (hFixed : config.teeWindows = .fixed)
    (hValid : s.placement.table.tee.region.isValid = true) :
    KeepsAt config seen s growByConfig := by
  have hGrown : Origin config seen .tee _ := .offered nofun (h.offered_grown hFixed hValid)
  refine keepsAt_table_bind ?_
  dsimp only
  split
  · exact keeps_setRegion hGrown seen s (List.Subset.refl _) h
  · exact keeps_throw _ seen s (List.Subset.refl _) h

theorem keeps_placeMonolithic : Keeps config known placeMonolithic := by
  intro seen s hKnown hTraced
  refine keepsAt_table_bind ?_
  by_cases hValid : s.placement.table.tee.region.isValid = true
  · rw [if_neg (not_not_intro hValid)]
    refine keepsAt_config_bind hTraced ?_
    cases hWindows : config.teeWindows with
    | fixed =>
      refine (keepsAt_growByConfig hTraced hWindows hValid).bind fun _ => ?_
      exact keeps_update (fun _ => rfl) fun _ _ => rfl
    | dramTop =>
      refine KeepsAt.bind (keeps_enterAt _ _ seen s hKnown hTraced) fun _ => ?_
      exact keeps_update (fun _ => rfl) fun _ _ => rfl
  · rw [if_pos hValid]
    refine ensures_bind.2 (ensures_throw.2 ?_)
    rwa [List.append_nil]

theorem keeps_placeContainer (bytes : List UInt8) (base : UInt64) :
    Keeps config known (placeContainer bytes base) := by
  refine keeps_bind (keeps_teeWindows bytes) fun windows => ?_
  refine keeps_config_bind ?_
  cases hParse : Tee.Image.parse bytes base windows config.reservedRegions with
  | error e => exact keeps_bind (keeps_note _ _) fun _ => keeps_throw _
  | ok image =>
    cases image with
    | monolithic address => exact keeps_placeMonolithic
    | split parts =>
      obtain ⟨h, flags, rest, -, hPlaces⟩ := (Tee.parse_eq_split_iff parts).1 hParse
      exact keeps_placeSplit hPlaces.clear

theorem keeps_resumeTee : Keeps config known resumeTee := by
  refine keeps_ask_bind fun pc => ?_
  refine keeps_bind (keeps_enterAt _ _) fun _ => ?_
  refine keeps_config_bind ?_
  split
  · exact keeps_ask _
  · exact keeps_pure ()

theorem keeps_keepParameters : Keeps config known keepParameters := by
  refine keeps_table_bind fun table => ?_
  refine keeps_config_bind ?_
  split
  · refine keeps_ask_bind fun reply => ?_
    cases reply with
    | ok _ => exact keeps_pure ()
    | error fault =>
      refine keeps_bind (keeps_note _ _) fun _ => keeps_modify (fun s => ?_) fun s => ?_
      · unfold Placement.addDegraded
        split <;> rfl
      · unfold Placement.addDegraded
        split <;> rfl
  · exact keeps_pure ()

theorem keeps_placeTee : Keeps config known placeTee := by
  refine keeps_table_bind fun table => ?_
  refine keeps_bind (keeps_enterAt _ _) fun _ => ?_
  refine keeps_ask_bind fun bytes => ?_
  dsimp only
  split
  · refine keeps_ask_bind fun restored => ?_
    split
    · exact keeps_resumeTee
    · exact keeps_bind (keeps_placeContainer _ _) fun _ => keeps_keepParameters
  · exact keeps_bind keeps_placeMonolithic fun _ => keeps_keepParameters

/-! ## Loads -/

theorem keeps_handOffNonSecure : Keeps config known handOffNonSecure := by
  refine keeps_table_bind fun table => ?_
  refine keeps_bind (keeps_update (fun _ => rfl) fun _ _ => rfl) fun _ => ?_
  exact keeps_ask _

theorem keeps_afterLoad (image : ImageId) : Keeps config known (afterLoad image) := by
  cases image with
  | firmwareConfig => exact keeps_placeFirmwareConfig
  | tee => exact keeps_placeTee
  | nonSecureFirmware => exact keeps_handOffNonSecure
  | teePager => exact keeps_pure ()
  | teePaged => exact keeps_pure ()
  | hardwareConfig => exact keeps_pure ()
  | teeConfig => exact keeps_pure ()

theorem Placement.LoadsInTurn.traced {p q : Placement} {images : List ImageId}
    {seen t : List Exchange} {results : List (Except Error Unit)}
    (h : LoadsInTurn p images t results q) (hp : Traced config seen p) :
    Traced config (seen ++ t) q := by
  induction h generalizing seen with
  | nil p => rwa [List.append_nil]
  | @cons p q image images log t t' result results s hLoad _ ih =>
    rw [← List.append_assoc]
    exact ih (keeps_afterLoad image seen ⟨p, log⟩ (List.Subset.refl _) hp t result s hLoad)

/-- Whatever images are brought in to a fresh placement, in whatever order and with whatever
outcome: an image that is to be fetched has a region that is clear of the reserved regions, or one
that the board's answers gave it and that was checked against nothing. -/
theorem fetched_clear_or_offered {config : Config} {t : List Exchange} {p : Placement}
    {image : ImageId} (h : Loads (.fresh config) t p)
    (hFetched : (p.table.get image).skipsLoading = false) :
    (∀ r ∈ config.reservedRegions, (p.table.get image).region.Apart r) ∨
      Offered config t image (p.table.get image).region := by
  obtain ⟨images, results, hLoads⟩ := h
  have hTraced : Traced config t p := hLoads.traced (traced_fresh config)
  have hOrigin := hTraced.origin image
  have hSkips := hTraced.skips
  generalize (p.table.get image).region = region at hOrigin ⊢
  cases hOrigin with
  | unresolved _ =>
    exact .inl fun r _ a ha => absurd ha (Region.not_covers_of_size_eq_zero rfl a)
  | own =>
    rw [hSkips] at hFetched
    cases hFetched
  | pagerPart hClear => exact .inl hClear
  | pagedPart hClear => exact .inl hClear
  | offered _ hOffered => exact .inr hOffered

/-- On the board whose firmware configuration puts the non-secure firmware over the stage, the
configuration is accepted, and the firmware is to be fetched to where it was put. -/
theorem runs_overStage :
    ∃ t s, Runs (imageLoaded .firmwareConfig (.fresh .standard) (.empty .info)) t (.ok (), s) ∧
      (s.placement.table.get .nonSecureFirmware).skipsLoading = false ∧
      (s.placement.table.get .nonSecureFirmware).region = .window 0x2FFE0000 0x1000 := by
  obtain ⟨t, ⟨result, s⟩, hRuns, hEnds, hFetched, hRegion⟩ := Program.exists_runs overStageBoard
    (imageLoaded .firmwareConfig (.fresh .standard) (.empty .info)) () (P := fun _ ended =>
      ended.1 = .ok () ∧
        (ended.2.placement.table.get .nonSecureFirmware).skipsLoading = false ∧
        (ended.2.placement.table.get .nonSecureFirmware).region = .window 0x2FFE0000 0x1000)
    (by decide +kernel)
  obtain rfl : result = _ := hEnds
  exact ⟨t, s, hRuns, hFetched, hRegion⟩

/-- On that board, the non-secure firmware is in the second case: the region over the stage was
offered. -/
theorem offered_over_stage :
    ∃ t s, Runs (imageLoaded .firmwareConfig (.fresh .standard) (.empty .info)) t (.ok (), s) ∧
      Loads (.fresh .standard) t s.placement ∧
      (s.placement.table.get .nonSecureFirmware).skipsLoading = false ∧
      (s.placement.table.get .nonSecureFirmware).region = .window 0x2FFE0000 0x1000 ∧
      Offered .standard t .nonSecureFirmware (s.placement.table.get .nonSecureFirmware).region := by
  obtain ⟨t, s, hRuns, hFetched, hRegion⟩ := runs_overStage
  have hLoads : Loads (.fresh .standard) t s.placement := loads_of_runs hRuns
  refine ⟨t, s, hRuns, hLoads, hFetched, hRegion, ?_⟩
  rcases fetched_clear_or_offered hLoads hFetched with hClear | hOffered
  · rw [hRegion] at hClear
    exact absurd (by decide) (hClear _ List.mem_cons_self 0x2FFE0000 (by decide))
  · exact hOffered

/-- An accepted firmware configuration has an image fetched over the code of the stage. -/
theorem fetched_over_stage :
    ∃ t s, Runs (imageLoaded .firmwareConfig (.fresh .standard) (.empty .info)) t (.ok (), s) ∧
      (s.placement.table.get .nonSecureFirmware).skipsLoading = false ∧
      ∃ r ∈ Config.standard.reservedRegions, ∃ a,
        (s.placement.table.get .nonSecureFirmware).region.Covers a ∧ r.Covers a := by
  obtain ⟨t, s, hRuns, hFetched, hRegion⟩ := runs_overStage
  refine ⟨t, s, hRuns, hFetched, _, List.mem_cons_self, 0x2FFE0000, ?_, by decide⟩
  rw [hRegion]
  decide

end BootStage
