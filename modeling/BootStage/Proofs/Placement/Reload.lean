import BootStage.Proofs.Placement.FirmwareConfig
import BootStage.Proofs.Placement.TeeFate

/-!
# Bringing images in a second time

On a board that keeps its answers, images that were brought in can be brought in again, and the table
stays as it is.  For the TEE alone that is so if its image has the signature
(`signed_tee_load_is_idempotent`): a monolithic image would grow once more.  If the firmware
configuration comes before it both times, it is so for every TEE that the configuration describes
(`reload_leaves_table`).

The TEE is judged by the regions in the table, which the first load has rewritten, so what has to be
shown is that it meets the same fate, and that the fate changes nothing any more:

    the TEE alone     the parts of a container are windows enough for it   (Header.Places.again)
    both              the configuration resets every region                (regions_described_again)
-/

namespace BootStage

/-! ## Containers -/

namespace Tee

variable {bytes : List UInt8} {base : UInt64} {windows : Windows} {reserved : List Region}

namespace Segment

variable {s : Segment} {window : Region} (attributes : Flags MapAttribute)

/-- A segment that was placed is placed there again, whether it names an address or not. -/
theorem base_region (s : Segment) (window : Region) : s.base (s.region window attributes) = s.base window := by
  unfold base region base
  split <;> rfl

theorem region_region (s : Segment) (window : Region) :
    s.region (s.region window attributes) attributes = s.region window attributes := by
  show (⟨s.base (s.region window attributes), s.size.toUInt64, attributes⟩ : Region) = _
  rw [base_region]
  rfl

theorem occupies_region (a : Nat) : s.Occupies (s.region window attributes) a ↔ s.Occupies window a := by
  unfold Occupies
  rw [base_region]

/-- The segment's own region is window enough for it. -/
theorem Loadable.again (h : s.Loadable window reserved) :
    s.Loadable (s.region window attributes) reserved where
  nonempty := h.nonempty
  bounded := by
    rw [Region.limit?_isSome_iff, toNat_size]
    exact h.end_lt
  inside a ha := (h.covers_iff attributes a).2 ((occupies_region attributes a).1 ha)
  clear r hr a ha := h.clear r hr a ((occupies_region attributes a).1 ha)

end Segment

/-- A header that was placed is placed in the regions of its parts as it was. -/
theorem Header.Places.again {h : Header} {parts : Split} (hPlaces : h.Places windows reserved parts) :
    h.Places ⟨parts.pager, parts.paged⟩ reserved parts := by
  cases hPlaces with
  | @pagerOnly p hSegments hp hpLoads =>
    have hAgain : h.Places ⟨p.region windows.pager pagerAttributes, ⟨windows.paged.base, 0, pagedAttributes⟩⟩
        reserved ⟨p.region (p.region windows.pager pagerAttributes) pagerAttributes,
          ⟨windows.paged.base, 0, pagedAttributes⟩, h.state⟩ :=
      .pagerOnly hSegments hp (hpLoads.again pagerAttributes)
    rwa [Segment.region_region] at hAgain
  | @both p q hSegments hp hq hpLoads hqLoads hApart =>
    have hAgain : h.Places ⟨p.region windows.pager pagerAttributes, q.region windows.paged pagedAttributes⟩
        reserved ⟨p.region (p.region windows.pager pagerAttributes) pagerAttributes,
          q.region (q.region windows.paged pagedAttributes) pagedAttributes, h.state⟩ := by
      refine .both hSegments hp hq (hpLoads.again _) (hqLoads.again _) fun a ha hb => ?_
      exact hApart a ((Segment.occupies_region _ a).1 ha) ((Segment.occupies_region _ a).1 hb)
    rwa [Segment.region_region, Segment.region_region] at hAgain

theorem parse_again {parts : Split}
    (hParse : Image.parse bytes base windows reserved = .ok (.split parts)) :
    Image.parse bytes base ⟨parts.pager, parts.paged⟩ reserved = .ok (.split parts) := by
  obtain ⟨h, flags, rest, hBytes, hPlaces⟩ := (parse_eq_split_iff parts).1 hParse
  exact (parse_eq_split_iff parts).2 ⟨h, flags, rest, hBytes, hPlaces.again⟩

end Tee

namespace Placement

variable {answer : (q : Request) → q.Reply} {config : Config}

/-! ## Parts that are placed again -/

@[simp]
theorem placePart_placePart (region : Region) (d : Descriptor) :
    placePart region (placePart region d) = placePart region d := by
  unfold placePart
  dsimp only
  split
  · rfl
  · exact Descriptor.ext rfl rfl rfl (Flags.erase_erase _ _) rfl

/-- What region a part had does not matter. -/
@[simp]
theorem placePart_inRegion (region window : Region) (d : Descriptor) :
    placePart region (d.inRegion window) = placePart region d := by
  unfold placePart
  split <;> rfl

/-! ## The TEE alone -/

/-- A TEE with the signature meets the same fate again, and that leaves the table as it is. -/
theorem signed_fate_again {t : ImageTable} {base : UInt64} {fate : TeeFate}
    (hSigned : Tee.hasSignature (teeBytes answer base) = true)
    (h : teeFate? config answer t.regions base = .ok fate) :
    teeFate? config answer (t.enteringBase.settle fate).regions base = .ok fate ∧
      (t.enteringBase.settle fate).enteringBase.settle fate = t.enteringBase.settle fate := by
  unfold teeFate? at h ⊢
  rw [if_pos hSigned] at h ⊢
  split at h
  · next hRestored =>
    cases h
    rw [if_pos hRestored]
    exact ⟨rfl, rfl⟩
  · next hCold =>
    obtain ⟨windows, parts, hWindows, hParse, rfl⟩ := (containerFate?_eq_ok_iff hSigned).1 h
    rw [if_neg hCold, containerFate?_eq_ok_iff hSigned]
    refine ⟨?_, ImageTable.ext rfl rfl (placePart_placePart _ _) (placePart_placePart _ _) rfl rfl rfl⟩
    cases hMode : config.teeWindows with
    | dramTop =>
      exact ⟨windows, parts, (teeWindows?_of_dramTop hMode _ t.regions _).trans hWindows, hParse, rfl⟩
    | fixed =>
      refine ⟨⟨parts.pager, parts.paged⟩, parts, ?_, Tee.parse_again hParse, rfl⟩
      rw [teeWindows?_of_fixed hMode]
      simp [ImageTable.regions, ImageTable.get, ImageTable.settle, TeeFate.onPart]

theorem tee_base_settle (t : ImageTable) (fate : TeeFate) :
    (t.enteringBase.settle fate).tee.region.base = t.tee.region.base := by
  cases fate <;> rfl

section Load

variable {p q : Placement} {result : Except Error Unit}

theorem exists_load (answer : (q : Request) → q.Reply) (image : ImageId) (p : Placement) :
    ∃ result q, Load answer image p result q :=
  ⟨_, _, .empty .info, _, _, Program.runs_transcript _ _ (), steady_transcript _ _, rfl⟩

theorem Load.exists_fate (h : Load answer .tee p (.ok ()) q) :
    q.config = p.config ∧ ∃ fate,
      teeFate? p.config answer p.table.regions p.table.tee.region.base = .ok fate ∧
        q.table = p.table.enteringBase.settle fate := by
  obtain ⟨hConfig, hTable⟩ := h.turned turns_placeTee
  obtain ⟨fate, hFate, hSettled⟩ := exists_of_map hTable.symm
  exact ⟨hConfig, fate, hFate, hSettled.symm⟩

theorem Load.of_fate {fate : TeeFate} (h : Load answer .tee p result q)
    (hFate : teeFate? p.config answer p.table.regions p.table.tee.region.base = .ok fate) :
    result = .ok () ∧ q.table = p.table.enteringBase.settle fate := by
  have hTable := (h.turned turns_placeTee).2
  rw [hFate] at hTable
  obtain ⟨_, rfl, hSettled⟩ := exists_of_map hTable
  exact ⟨rfl, hSettled⟩

end Load

/-- A TEE with the signature that was brought in can be brought in again, and the table stays as the
first load left it: whether the parts of the container go to windows of their own, the second time to
what they left of them, or to the top of DRAM, and also if the TEE resumes.  The second load may be on
another placement with this table. -/
theorem signed_tee_load_is_idempotent {bytes : List UInt8} {p q r : Placement}
    (hFound : answer (.imageBytes p.table.tee.region.base Tee.headerCapacity) = some bytes)
    (hSigned : Tee.signature <+: bytes) (hFirst : Load answer .tee p (.ok ()) q)
    (hConfig : r.config = q.config) (hTable : r.table = q.table) :
    (∃ r', Load answer .tee r (.ok ()) r') ∧
      ∀ result r', Load answer .tee r result r' → result = .ok () ∧ r'.table = q.table := by
  obtain ⟨hSame, fate, hFate, hSettled⟩ := hFirst.exists_fate
  have hSignature : Tee.hasSignature (teeBytes answer p.table.tee.region.base) = true := by
    rw [teeBytes, hFound]
    exact (Tee.hasSignature_iff bytes).2 hSigned
  obtain ⟨hAgain, hStays⟩ := signed_fate_again hSignature hFate
  rw [← tee_base_settle p.table fate, ← hSettled, ← hTable, ← hSame, ← hConfig] at hAgain
  rw [← hSettled] at hStays
  have hSecond : ∀ result r', Load answer .tee r result r' → result = .ok () ∧ r'.table = q.table := by
    intro result r' hLoad
    obtain ⟨rfl, hEnd⟩ := hLoad.of_fate hAgain
    rw [hTable, hStays] at hEnd
    exact ⟨rfl, hEnd⟩
  refine ⟨?_, hSecond⟩
  obtain ⟨result, r', hLoad⟩ := exists_load answer .tee r
  obtain ⟨rfl, -⟩ := hSecond result r' hLoad
  exact ⟨r', hLoad⟩

/-- A container that has nothing but a pager, which goes to the base of its window. -/
def pagerContainer : List UInt8 :=
  Tee.Header.encode ⟨.aarch64, [⟨.pager, Tee.atWindowBase, 0x1000⟩]⟩ (0, 0)

/-- Replies of a board with this container. -/
def pagerReply : (q : Request) → q.Reply
  | .imageBytes _ _ => some pagerContainer
  | q => usualReply 0 q

/-- A placement with fixed windows for the parts of the TEE. -/
def withPartWindows (pager paged : Region) : Placement :=
  { Placement.fresh .standard with
    table := ((ImageTable.unresolved.update .tee (·.inRegion pager)).update .teePager
      (·.inRegion pager)).update .teePaged (·.inRegion paged) }

/-- The pager leaves nothing of its window but itself, and the paged part nothing at all; the
container is placed there again as it was. -/
theorem pagerContainer_placed_again : ∃ q r,
    Load pagerReply .tee
      (withPartWindows (.window 0x2FFC0000 0x19000) (.window 0xDE000000 0x1E00000)) (.ok ()) q ∧
    q.table.teePager.region = ⟨0x2FFC0000, 0x1000, Tee.pagerAttributes⟩ ∧
    q.table.teePaged.region = ⟨0xDE000000, 0, Tee.pagedAttributes⟩ ∧
    Load pagerReply .tee q (.ok ()) r ∧ r.table = q.table := by
  obtain ⟨t, ⟨result, s⟩, hRuns, hSteady, hEnds, hPager, hPaged⟩ := Program.exists_runs
    (steadyBoard pagerReply) (imageLoaded .tee
      (withPartWindows (.window 0x2FFC0000 0x19000) (.window 0xDE000000 0x1E00000)) (.empty .info)) ()
    (P := fun t ended => Steady pagerReply t ∧ ended.1 = .ok () ∧
      ended.2.placement.table.teePager.region = ⟨0x2FFC0000, 0x1000, Tee.pagerAttributes⟩ ∧
      ended.2.placement.table.teePaged.region = ⟨0xDE000000, 0, Tee.pagedAttributes⟩)
    ⟨steady_transcript _ _, by decide +kernel⟩
  obtain rfl : result = .ok () := hEnds
  have hFirst : Load pagerReply .tee
      (withPartWindows (.window 0x2FFC0000 0x19000) (.window 0xDE000000 0x1E00000)) (.ok ())
      s.placement := ⟨_, t, s, hRuns, hSteady, rfl⟩
  have hSigned : Tee.signature <+: pagerContainer := by decide +kernel
  obtain ⟨⟨r, hSecond⟩, hStays⟩ := signed_tee_load_is_idempotent rfl hSigned hFirst rfl rfl
  exact ⟨s.placement, r, hFirst, hPager, hPaged, hSecond, (hStays _ r hSecond).2⟩

/-! ## The firmware configuration and the TEE -/

section Described

variable {place : ImagePlace}

/-- Once an entry was followed, following it again changes nothing but where the image is entered. -/
theorem placedAt_enteredAt_placedAt (d : Descriptor) (place : ImagePlace) (held : Bool) (pc : UInt64) :
    ((d.placedAt place held).enteredAt pc).placedAt place held = (d.placedAt place held).enteredAt pc := by
  cases held with
  | true => rfl
  | false => exact Descriptor.ext rfl rfl rfl (Flags.erase_erase _ _) rfl

theorem placedAt_placedAt (d : Descriptor) (place : ImagePlace) (held : Bool) :
    (d.placedAt place held).placedAt place held = d.placedAt place held :=
  placedAt_enteredAt_placedAt d place held (d.placedAt place held).entry.pc

/-- An entry that was followed once, if there is one, need not be followed again. -/
theorem elim_again {entry : Option ImagePlace} {f : ImagePlace → Descriptor → Descriptor}
    (hTwice : ∀ place d, f place (f place d) = f place d) {d d' : Descriptor}
    (h : d' = entry.elim d fun place => f place d) :
    (entry.elim d' fun place => f place d') = d' := by
  subst h
  cases entry with
  | none => rfl
  | some place => exact hTwice place d

/-- What the firmware configuration says of an image beside the TEE was done and need not be done
again. -/
theorem get_described_again {t t' : ImageTable} {image : ImageId} (hTee : image ≠ .tee)
    (hPager : image ≠ .teePager) (hPaged : image ≠ .teePaged)
    (h : t'.get image = (t.described config answer).get image) :
    (t'.described config answer).get image = t'.get image := by
  cases image with
  | tee | teePager | teePaged => contradiction
  | firmwareConfig =>
    show t'.firmwareConfig.inRegion _ = t'.firmwareConfig
    rw [show t'.firmwareConfig = _ from h]
    rfl
  | nonSecureFirmware =>
    refine elim_again (f := fun place d => (d.placedAt place (held config answer place)).enteredAt
      (if answer .isDramRestored then resumeEntry else place.address)) (fun place d => ?_) h
    rw [placedAt_enteredAt_placedAt]
    rfl
  | hardwareConfig =>
    exact elim_again (f := fun place d => d.placedAt place (held config answer place))
      (fun place d => placedAt_placedAt d place _) h
  | teeConfig =>
    exact elim_again (f := fun place d => d.placedAt place (held config answer place))
      (fun place d => placedAt_placedAt d place _) h

theorem get_described_settle {image : ImageId} (hTee : image ≠ .tee) (hPager : image ≠ .teePager)
    (hPaged : image ≠ .teePaged) (t : ImageTable) (fate : TeeFate) :
    (((t.described config answer).settle fate).described config answer).get image =
      (t.described config answer).get image := by
  have hSettled := ImageTable.get_settle hTee hPager hPaged (t.described config answer) fate
  rw [get_described_again hTee hPager hPaged hSettled, hSettled]

/-- Following the entry of the TEE again undoes what its fate did to its region, and the fate does
the same once more. -/
theorem onTee_again (fate : TeeFate) (d : Descriptor) (place : ImagePlace) (held : Bool) :
    fate.onTee (((fate.onTee ((d.placedAt place held).enteredAt place.address)).placedAt place
      held).enteredAt place.address) =
      fate.onTee ((d.placedAt place held).enteredAt place.address) := by
  cases held with
  | true => cases fate <;> rfl
  | false => cases fate <;> exact Descriptor.ext rfl rfl rfl (Flags.erase_erase _ _) rfl

/-- For a part, the window that the configuration gives it does not matter once it is placed. -/
theorem onPart_again (part : Tee.Split → Region) (fate : TeeFate) (d : Descriptor) (window : Region) :
    fate.onPart part ((fate.onPart part (d.inRegion window)).inRegion window) =
      fate.onPart part (d.inRegion window) := by
  cases fate with
  | split parts => simp [TeeFate.onPart]
  | resumed _ | grown _ | entered _ => rfl

/-- The table that comes of the configuration and the fate comes of them again. -/
theorem settle_described_again (hEntry : answer (.imagePlace .tee) = some place) (t : ImageTable)
    (fate : TeeFate) :
    (((t.described config answer).settle fate).described config answer).settle fate =
      (t.described config answer).settle fate := by
  have hOther (image : ImageId) (hTee : image ≠ .tee) (hPager : image ≠ .teePager)
      (hPaged : image ≠ .teePaged) :
      ((((t.described config answer).settle fate).described config answer).settle fate).get image =
        ((t.described config answer).settle fate).get image := by
    rw [ImageTable.get_settle hTee hPager hPaged, ImageTable.get_settle hTee hPager hPaged]
    exact get_described_settle hTee hPager hPaged t fate
  apply ImageTable.ext
  case tee =>
    simp only [ImageTable.settle, ImageTable.described, hEntry, Option.elim]
    exact onTee_again _ _ _ _
  case teePager =>
    simp only [ImageTable.settle, ImageTable.described, hEntry, Option.elim]
    exact onPart_again _ _ _ _
  case teePaged =>
    simp only [ImageTable.settle, ImageTable.described, hEntry, Option.elim]
    exact onPart_again _ _ _ _
  case firmwareConfig => exact hOther .firmwareConfig (by decide) (by decide) (by decide)
  case nonSecureFirmware => exact hOther .nonSecureFirmware (by decide) (by decide) (by decide)
  case hardwareConfig => exact hOther .hardwareConfig (by decide) (by decide) (by decide)
  case teeConfig => exact hOther .teeConfig (by decide) (by decide) (by decide)

theorem region_placedAt (d : Descriptor) (place : ImagePlace) (held : Bool) :
    (d.placedAt place held).region = .window place.address place.maxSize := by
  cases held <;> rfl

/-- Whatever became of the TEE, the configuration gives every image the region that it had before. -/
theorem regions_described_again (hEntry : answer (.imagePlace .tee) = some place) (t : ImageTable)
    (fate : TeeFate) :
    (((t.described config answer).settle fate).described config answer).regions =
      (t.described config answer).regions := by
  funext image
  unfold ImageTable.regions
  cases image with
  | tee =>
    simp only [ImageTable.get, ImageTable.described, hEntry, Option.elim]
    exact (region_placedAt _ _ _).trans (region_placedAt _ _ _).symm
  | teePager | teePaged =>
    simp only [ImageTable.get, ImageTable.described, hEntry, Option.elim]
    rfl
  | firmwareConfig | nonSecureFirmware | hardwareConfig | teeConfig =>
    exact congrArg Descriptor.region
      (get_described_settle (by decide) (by decide) (by decide) t fate)

theorem enteringBase_described (hEntry : answer (.imagePlace .tee) = some place) (t : ImageTable) :
    (t.described config answer).enteringBase = t.described config answer := by
  refine ImageTable.ext rfl ?_ rfl rfl rfl rfl rfl
  simp only [ImageTable.enteringBase, ImageTable.enteringTee, ImageTable.update, ImageTable.set,
    ImageTable.get, ImageTable.described, hEntry, Option.elim]
  cases held config answer place <;> rfl

/-- When the configuration is carried out again, the TEE meets its fate again, and the table is as it
was. -/
theorem fate_described_again (hEntry : answer (.imagePlace .tee) = some place) {t v : ImageTable}
    {fate : TeeFate}
    (hFate : teeFate? config answer (t.described config answer).regions
      (t.described config answer).tee.region.base = .ok fate)
    (hv : v = ((t.described config answer).settle fate).described config answer) :
    teeFate? config answer v.regions v.tee.region.base = .ok fate ∧
      v.enteringBase.settle fate = (t.described config answer).settle fate := by
  subst hv
  have hRegions : (((t.described config answer).settle fate).described config answer).regions =
      (t.described config answer).regions := regions_described_again hEntry t fate
  have hBase := congrArg Region.base (congrFun hRegions .tee)
  constructor
  · rw [hRegions]
    exact (congrArg (teeFate? config answer _) hBase).trans hFate
  · rw [enteringBase_described hEntry]
    exact settle_described_again hEntry t fate

end Described

/-- Whether the configuration is accepted has nothing to do with the table. -/
theorem described?_of_eq_ok {t t' : ImageTable} (h : t.described? config answer = .ok t') :
    t' = t.described config answer ∧
      ∀ u : ImageTable, u.described? config answer = .ok (u.described config answer) := by
  unfold ImageTable.described? at h ⊢
  split at h
  · cases h
  · split at h
    · cases h
    · next hRoom =>
      exact ⟨(Except.ok.inj h).symm, fun u => if_neg hRoom⟩

section Load

variable {p q : Placement} {result : Except Error Unit}

theorem Load.of_described (h : Load answer .firmwareConfig p result q)
    (hAccepts : p.table.described? p.config answer = .ok (p.table.described p.config answer)) :
    result = .ok () ∧ q.config = p.config ∧ q.table = p.table.described p.config answer := by
  obtain ⟨hConfig, hTable⟩ := h.turned turns_placeFirmwareConfig
  obtain ⟨_, rfl, hEnd⟩ := exists_of_map (hTable.trans hAccepts)
  exact ⟨rfl, hConfig, hEnd⟩

theorem Load.described_of_ok (h : Load answer .firmwareConfig p (.ok ()) q) :
    q.config = p.config ∧ q.table = p.table.described p.config answer ∧
      ∀ u : ImageTable, u.described? p.config answer = .ok (u.described p.config answer) := by
  obtain ⟨hConfig, hTable⟩ := h.turned turns_placeFirmwareConfig
  obtain ⟨hEnd, hAccepts⟩ := described?_of_eq_ok hTable.symm
  exact ⟨hConfig, hEnd, hAccepts⟩

/-- Two loads in turn are one load and then the other. -/
theorem LoadsInTurn.pair {image image' : ImageId} {t : List Exchange}
    {results : List (Except Error Unit)} (h : LoadsInTurn p [image, image'] t results q)
    (hSteady : Steady answer t) : ∃ result result' between, results = [result, result'] ∧
      Load answer image p result between ∧ Load answer image' between result' q := by
  obtain ⟨result, _, between, t', rfl, hLoad, hRest, hSteady'⟩ := h.first hSteady
  obtain ⟨result', _, last, t'', rfl, hLoad', hNone, -⟩ := hRest.first hSteady'
  obtain ⟨-, rfl, rfl⟩ := hNone.eq_of_nil
  exact ⟨result, result', between, rfl, hLoad, hLoad'⟩

end Load

/-- When the firmware configuration has an entry for the TEE and both were brought in, both can be
brought in again, and the table is as it was: the configuration resets what the fate of the TEE did to
the regions, so that the TEE meets the same fate.  This is so in both layouts and whatever the fate
was.  The second time may be on another placement with this table. -/
theorem reload_leaves_table {place : ImagePlace} {p q r : Placement} {t : List Exchange}
    (hEntry : answer (.imagePlace .tee) = some place)
    (hFirst : LoadsInTurn p [.firmwareConfig, .tee] t [.ok (), .ok ()] q) (hSteady : Steady answer t)
    (hConfig : r.config = q.config) (hTable : r.table = q.table) :
    (∃ t' r', LoadsInTurn r [.firmwareConfig, .tee] t' [.ok (), .ok ()] r' ∧ Steady answer t') ∧
      ∀ t' results r', LoadsInTurn r [.firmwareConfig, .tee] t' results r' → Steady answer t' →
        results = [.ok (), .ok ()] ∧ r'.table = q.table := by
  obtain ⟨_, _, p₁, hResults, hLoadConfig, hLoadTee⟩ := hFirst.pair hSteady
  cases hResults
  obtain ⟨hConfig₁, hDescribed, hAccepts⟩ := hLoadConfig.described_of_ok
  obtain ⟨hConfig₂, fate, hFate, hSettled⟩ := hLoadTee.exists_fate
  rw [hConfig₁, hDescribed] at hFate
  rw [hDescribed, enteringBase_described hEntry] at hSettled
  have hSame : r.config = p.config := hConfig.trans (hConfig₂.trans hConfig₁)
  have hSecond : ∀ t' results r', LoadsInTurn r [.firmwareConfig, .tee] t' results r' →
      Steady answer t' → results = [.ok (), .ok ()] ∧ r'.table = q.table := by
    intro t' results r' hLoads hSteady'
    obtain ⟨result, result', r₁, rfl, hAgain, hTeeAgain⟩ := hLoads.pair hSteady'
    rw [← hSame] at hAccepts
    obtain ⟨rfl, hConfig₃, hDescribed'⟩ := hAgain.of_described (hAccepts r.table)
    rw [hTable, hSettled, hSame] at hDescribed'
    obtain ⟨hFate', hStays⟩ := fate_described_again hEntry hFate hDescribed'
    rw [← hSame, ← hConfig₃] at hFate'
    obtain ⟨rfl, hEnd⟩ := hTeeAgain.of_fate hFate'
    exact ⟨rfl, hEnd.trans (hStays.trans hSettled.symm)⟩
  refine ⟨?_, hSecond⟩
  obtain ⟨t', results, r', hLoads, hSteady'⟩ := exists_steady_loads answer [.firmwareConfig, .tee] r
  obtain ⟨rfl, -⟩ := hSecond t' results r' hLoads hSteady'
  exact ⟨t', r', hLoads, hSteady'⟩

/-- Replies of a board whose TEE is monolithic and has its configuration behind it. -/
def monolithicReply : (q : Request) → q.Reply
  | .imagePlace .tee => some ⟨0x2FFC0000, 0x18000⟩
  | .imagePlace .teeConfig => some ⟨0x2FFD8000, 0x1000⟩
  | q => usualReply 0 q

/-- The region of the TEE has taken in the configuration, and does not take it in twice when both are
brought in again. -/
theorem tee_grows_once : ∃ t q t' r,
    LoadsInTurn (.fresh .standard) [.firmwareConfig, .tee] t [.ok (), .ok ()] q ∧
    q.table.tee.region.size = 0x19000 ∧
    LoadsInTurn q [.firmwareConfig, .tee] t' [.ok (), .ok ()] r ∧ r.table = q.table := by
  obtain ⟨t, ⟨results, s⟩, hRuns, hSteady, hEnds, hSize⟩ := Program.exists_runs
    (steadyBoard monolithicReply) (loadAll [.firmwareConfig, .tee] ⟨.fresh .standard, .empty .info⟩) ()
    (P := fun t ended => Steady monolithicReply t ∧ ended.1 = [.ok (), .ok ()] ∧
      ended.2.placement.table.tee.region.size = 0x19000)
    ⟨steady_transcript _ _, by decide +kernel⟩
  obtain rfl : results = [.ok (), .ok ()] := hEnds
  have hFirst := loadsInTurn_of_runs hRuns
  obtain ⟨⟨t', r, hSecond, hSteady'⟩, hStays⟩ := reload_leaves_table rfl hFirst hSteady rfl rfl
  exact ⟨t, s.placement, t', r, hFirst, hSize, hSecond, (hStays t' _ r hSecond hSteady').2⟩

end Placement

end BootStage
