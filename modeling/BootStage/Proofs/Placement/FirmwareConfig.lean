import BootStage.Proofs.Placement.Turns

/-!
# What the firmware configuration makes of the table

On a board that keeps its answers, the firmware configuration makes of the table a function of it.

    one entry                     ImageTable.carryOut                      (turns_applyEntry)
    the walk over the entries     carryOut from image to image             (turns_applyEntries)
    the firmware configuration    ImageTable.described?, in closed form    (turns_placeFirmwareConfig)

What the closed form says of the single descriptors, and when there is none, is
`firmware_config_places_images`.
-/

namespace BootStage

variable {answer : (q : Request) → q.Reply} {config : Config}

/-! ## Tables -/

namespace Descriptor

/-- The descriptor of an image that goes to `place`; it is fetched unless memory holds it still. -/
def placedAt (d : Descriptor) (place : ImagePlace) (held : Bool) : Descriptor :=
  let placed := { d with region := .window place.address place.maxSize }
  if held then placed else placed.fetch

/-- The descriptor of an image that is entered at `pc`. -/
def enteredAt (d : Descriptor) (pc : UInt64) : Descriptor :=
  { d with entry := { d.entry with pc } }

/-- The descriptor of an image that has this region. -/
def inRegion (d : Descriptor) (region : Region) : Descriptor := { d with region }

end Descriptor

theorem ImageTable.update_update (t : ImageTable) (image : ImageId) (f g : Descriptor → Descriptor) :
    (t.update image f).update image g = t.update image fun d => g (f d) := by
  cases image <;> rfl

/-- The secure window at the top of DRAM, if there is room for it. -/
def Layout.dramTop (layout : Layout) (size : UInt64) : Region :=
  .window (layout.dramBase + size - (layout.dramSecureSize + layout.dramSharedSize))
    layout.dramSecureSize

namespace Placement

/-- DRAM was restored, and the place is in it. -/
def held (config : Config) (answer : (q : Request) → q.Reply) (place : ImagePlace) : Bool :=
  answer .isDramRestored && config.layout.isDramAddress place.address

end Placement

namespace ImageTable

open Placement (held resumeEntry)

/-- What the role of an image adds to its entry. -/
def takeRole (t : ImageTable) (config : Config) (answer : (q : Request) → q.Reply)
    (place : ImagePlace) : ImageId → Except Error ImageTable
  | .tee =>
    match config.layout.dramTopWindow? (answer .dramSize) with
    | some top => .ok
      (((t.update .tee (·.enteredAt place.address)).update .teePager
        (·.inRegion (.window place.address place.maxSize))).update .teePaged (·.inRegion top))
    | none => .error .invalidRegion
  | .nonSecureFirmware => .ok (t.update .nonSecureFirmware
      (·.enteredAt (if answer .isDramRestored then resumeEntry else place.address)))
  | _ => .ok t

/-- What the entry of an image makes of the table; without one the table stays. -/
def carryOut (t : ImageTable) (config : Config) (answer : (q : Request) → q.Reply)
    (image : ImageId) : Except Error ImageTable :=
  match answer (.imagePlace image) with
  | some place =>
    (t.update image (·.placedAt place (held config answer place))).takeRole config answer place image
  | none => .ok t

/-- The table that the firmware configuration leaves when it is accepted. -/
def described (t : ImageTable) (config : Config) (answer : (q : Request) → q.Reply) : ImageTable where
  firmwareConfig := t.firmwareConfig.inRegion config.layout.firmwareConfig
  tee := (answer (.imagePlace .tee)).elim t.tee fun place =>
    (t.tee.placedAt place (held config answer place)).enteredAt place.address
  teePager := (answer (.imagePlace .tee)).elim t.teePager fun place =>
    t.teePager.inRegion (.window place.address place.maxSize)
  teePaged := (answer (.imagePlace .tee)).elim t.teePaged fun _ =>
    t.teePaged.inRegion (config.layout.dramTop (answer .dramSize))
  nonSecureFirmware := (answer (.imagePlace .nonSecureFirmware)).elim t.nonSecureFirmware fun place =>
    (t.nonSecureFirmware.placedAt place (held config answer place)).enteredAt
      (if answer .isDramRestored then resumeEntry else place.address)
  hardwareConfig := (answer (.imagePlace .hardwareConfig)).elim t.hardwareConfig fun place =>
    t.hardwareConfig.placedAt place (held config answer place)
  teeConfig := (answer (.imagePlace .teeConfig)).elim t.teeConfig fun place =>
    t.teeConfig.placedAt place (held config answer place)

/-- What the firmware configuration makes of the table: it cannot be read, or it describes a TEE and
DRAM has no room for the secure window, or else every descriptor is as described. -/
def described? (t : ImageTable) (config : Config) (answer : (q : Request) → q.Reply) :
    Except Error ImageTable :=
  match answer (.populateFirmwareConfig config.layout.firmwareConfig) with
  | .error _ => .error .configTreeInvalid
  | .ok _ =>
    if (answer (.imagePlace .tee)).isSome ∧
        answer .dramSize < config.layout.dramSecureSize + config.layout.dramSharedSize then
      .error .invalidRegion
    else .ok (t.described config answer)

end ImageTable

namespace Placement

/-! ## One entry -/

theorem turns_applyRole {image : ImageId} (hImage : image ∈ describedImages) (place : ImagePlace) :
    Turns answer config (applyRole image place (answer .isDramRestored))
      fun table => table.takeRole config answer place image := by
  cases image with
  | tee =>
    have hWindow : Turns answer config
        (Placing.dramTopWindow >>= fun top => Placing.setRegion .teePaged top) fun table =>
          match config.layout.dramTopWindow? (answer .dramSize) with
          | some top => .ok (table.update .teePaged (·.inRegion top))
          | none => .error .invalidRegion := by
      unfold Placing.dramTopWindow
      simp only [bind_assoc]
      refine turns_config_bind (turns_ask_bind ?_)
      cases config.layout.dramTopWindow? (answer .dramSize) with
      | some top => exact turns_update _ _
      | none => exact turns_throw _
    refine (turns_update_bind (turns_update_bind hWindow)).congr fun table => ?_
    unfold ImageTable.takeRole
    cases config.layout.dramTopWindow? (answer .dramSize) <;> rfl
  | nonSecureFirmware => exact turns_update _ _
  | hardwareConfig => exact turns_pure
  | teeConfig => exact turns_pure
  | firmwareConfig => exact absurd hImage (by decide)
  | teePager => exact absurd hImage (by decide)
  | teePaged => exact absurd hImage (by decide)

theorem turns_applyEntry {image : ImageId} (hImage : image ∈ describedImages) (place : ImagePlace) :
    Turns answer config (applyEntry image place (answer .isDramRestored)) fun table =>
      (table.update image (·.placedAt place (held config answer place))).takeRole config answer place
        image := by
  refine turns_config_bind ?_
  by_cases hHeld : answer .isDramRestored = true ∧ config.layout.isDramAddress place.address = true
  · have hFlag : held config answer place = true := by simpa [held] using hHeld
    refine (turns_update_bind (f := fun table => table.takeRole config answer place image) ?_).congr
      fun table => ?_
    · rw [if_neg (not_not_intro hHeld)]
      exact turns_note_bind (turns_applyRole hImage place)
    · rw [hFlag]
      rfl
  · have hFlag : held config answer place = false := by
      rw [Bool.eq_false_iff]
      simpa [held] using hHeld
    refine (turns_update_bind (f := fun table =>
      (table.update image Descriptor.fetch).takeRole config answer place image) ?_).congr
      fun table => ?_
    · rw [if_pos hHeld]
      exact turns_update_bind (turns_note_bind (turns_applyRole hImage place))
    · rw [hFlag, ImageTable.update_update]
      rfl

/-! ## The walk -/

/-- The walk makes of the table what its images make of it in turn; the induction is on the images
that are left. -/
theorem turns_applyEntries {images : List ImageId} (hImages : ∀ image ∈ images, image ∈ describedImages) :
    Turns answer config (applyEntries (answer .isDramRestored) images) fun table =>
      images.foldlM (fun table image => table.carryOut config answer image) table := by
  induction images with
  | nil => exact turns_pure
  | cons image images ih =>
    have hRest := ih fun i hi => hImages i (List.mem_cons_of_mem _ hi)
    refine turns_ask_bind ?_
    cases hPlace : answer (.imagePlace image) with
    | some place =>
      refine ((turns_applyEntry (hImages image List.mem_cons_self) place).seq hRest).congr
        fun table => ?_
      rw [List.foldlM_cons, ImageTable.carryOut, hPlace]
    | none =>
      refine hRest.congr fun table => ?_
      rw [List.foldlM_cons, ImageTable.carryOut, hPlace]
      rfl

/-- The TEE is the one image whose entry can be refused. -/
theorem carryOut_tee (table : ImageTable) : table.carryOut config answer .tee =
    if (answer (.imagePlace .tee)).isSome ∧
        answer .dramSize < config.layout.dramSecureSize + config.layout.dramSharedSize then
      .error .invalidRegion
    else .ok { table with
      tee := (table.described config answer).tee
      teePager := (table.described config answer).teePager
      teePaged := (table.described config answer).teePaged } := by
  unfold ImageTable.carryOut ImageTable.takeRole ImageTable.described Layout.dramTopWindow?
  cases answer (.imagePlace .tee) with
  | some place =>
    by_cases hRoom : answer .dramSize < config.layout.dramSecureSize + config.layout.dramSharedSize
    · simp only [hRoom, Option.isSome_some, and_self, if_true]
    · simp only [hRoom, and_false, if_false]
      rfl
  | none => rfl

theorem carryOut_nonSecureFirmware (table : ImageTable) :
    table.carryOut config answer .nonSecureFirmware =
      .ok { table with nonSecureFirmware := (table.described config answer).nonSecureFirmware } := by
  unfold ImageTable.carryOut ImageTable.described
  cases answer (.imagePlace .nonSecureFirmware) <;> rfl

theorem carryOut_hardwareConfig (table : ImageTable) :
    table.carryOut config answer .hardwareConfig =
      .ok { table with hardwareConfig := (table.described config answer).hardwareConfig } := by
  unfold ImageTable.carryOut ImageTable.described
  cases answer (.imagePlace .hardwareConfig) <;> rfl

theorem carryOut_teeConfig (table : ImageTable) :
    table.carryOut config answer .teeConfig =
      .ok { table with teeConfig := (table.described config answer).teeConfig } := by
  unfold ImageTable.carryOut ImageTable.described
  cases answer (.imagePlace .teeConfig) <;> rfl

theorem foldlM_carryOut (table : ImageTable) :
    describedImages.foldlM (fun table image => table.carryOut config answer image)
        (table.update .firmwareConfig (·.inRegion config.layout.firmwareConfig)) =
      if (answer (.imagePlace .tee)).isSome ∧
          answer .dramSize < config.layout.dramSecureSize + config.layout.dramSharedSize then
        .error .invalidRegion
      else .ok (table.described config answer) := by
  simp only [describedImages, List.foldlM_cons, List.foldlM_nil, carryOut_tee,
    carryOut_nonSecureFirmware, carryOut_hardwareConfig, carryOut_teeConfig]
  split <;> rfl

theorem turns_placeFirmwareConfig :
    Turns answer config placeFirmwareConfig fun table => table.described? config answer := by
  refine turns_config_bind (turns_ask_bind ?_)
  unfold ImageTable.described?
  cases answer (.populateFirmwareConfig config.layout.firmwareConfig) with
  | error fault => exact turns_throw _
  | ok _ =>
    refine (turns_update_bind (turns_ask_bind (turns_applyEntries fun _ => id))).congr fun table => ?_
    exact foldlM_carryOut table

/-! ## What the descriptors say then -/

/-- The descriptor follows an entry: the image goes where the entry says, and it is fetched unless
memory holds it still. -/
structure Follows (place : ImagePlace) (resident : Prop) (d d' : Descriptor) : Prop where
  region : d'.region = .window place.address place.maxSize
  left : resident → d'.attributes = d.attributes
  fetched : ¬ resident → d'.skipsLoading = false ∧ d'.attributes = d.attributes.erase .skipLoading
  others : d'.id = d.id ∧ d'.imageSize = d.imageSize

/-- The table after the firmware configuration was accepted. -/
structure DescribedTable (answer : (q : Request) → q.Reply) (layout : Layout)
    (table table' : ImageTable) : Prop where
  own : table'.firmwareConfig = { table.firmwareConfig with region := layout.firmwareConfig }
  placed : ∀ image ∈ describedImages, ∀ place, answer (.imagePlace image) = some place →
    Follows place (answer .isDramRestored = true ∧ layout.isDramAddress place.address = true)
      (table.get image) (table'.get image)
  absent : ∀ image ∈ describedImages, answer (.imagePlace image) = none →
    table'.get image = table.get image
  teeEntry : ∀ place, answer (.imagePlace .tee) = some place →
    table'.tee.entry = { table.tee.entry with pc := place.address }
  pager : (answer (.imagePlace .tee)).isSome →
    table'.teePager = { table.teePager with region := table'.tee.region }
  /-- The paged part gets a region that only the layout and the size of DRAM have a say in. -/
  paged : (answer (.imagePlace .tee)).isSome →
    table'.teePaged = { table.teePaged with region := layout.dramTop (answer .dramSize) }
  pagedBounds : (answer (.imagePlace .tee)).isSome →
    table'.teePaged.region.base.toNat =
        layout.dramBase.toNat + (answer .dramSize).toNat - layout.dramSecureSize.toNat -
          layout.dramSharedSize.toNat ∧
      table'.teePaged.region.size = layout.dramSecureSize
  /-- It lies in DRAM, below the part that is shared. -/
  pagedInside : (answer (.imagePlace .tee)).isSome → ∀ a, table'.teePaged.region.Covers a →
    layout.dramBase.toNat ≤ a ∧
      a < layout.dramBase.toNat + (answer .dramSize).toNat - layout.dramSharedSize.toNat
  noParts : answer (.imagePlace .tee) = none →
    table'.teePager = table.teePager ∧ table'.teePaged = table.teePaged
  firmwareEntry : ∀ place, answer (.imagePlace .nonSecureFirmware) = some place →
    table'.nonSecureFirmware.entry = { table.nonSecureFirmware.entry with
      pc := if answer .isDramRestored then resumeEntry else place.address }
  otherEntries : table'.hardwareConfig.entry = table.hardwareConfig.entry ∧
    table'.teeConfig.entry = table.teeConfig.entry

theorem entry_placedAt (d : Descriptor) (place : ImagePlace) (held : Bool) :
    (d.placedAt place held).entry = d.entry := by
  cases held <;> rfl

theorem entry_enteredAt_placedAt (d : Descriptor) (place : ImagePlace) (held : Bool) (pc : UInt64) :
    ((d.placedAt place held).enteredAt pc).entry = { d.entry with pc } := by
  cases held <;> rfl

theorem follows_placedAt {place : ImagePlace} {resident : Prop} {held : Bool}
    (hHeld : held = true ↔ resident) (d : Descriptor) (pc : UInt64) :
    Follows place resident d ((d.placedAt place held).enteredAt pc) := by
  by_cases hResident : resident
  · rw [hHeld.2 hResident]
    exact ⟨rfl, fun _ => rfl, fun hNot => absurd hResident hNot, rfl, rfl⟩
  · rw [Bool.eq_false_iff.2 fun hFlag => hResident (hHeld.1 hFlag)]
    exact ⟨rfl, fun h => absurd h hResident, fun _ => ⟨Descriptor.skipsLoading_fetch _, rfl⟩, rfl, rfl⟩

/-- An image with an entry is where the entry says; what is left open is where it is entered. -/
theorem get_described_of_some {image : ImageId} (hImage : image ∈ describedImages) {place : ImagePlace}
    (hPlace : answer (.imagePlace image) = some place) (table : ImageTable) :
    ∃ pc, (table.described config answer).get image =
      ((table.get image).placedAt place (held config answer place)).enteredAt pc := by
  cases image with
  | tee => exact ⟨place.address, by simp only [ImageTable.get, ImageTable.described, hPlace, Option.elim]⟩
  | nonSecureFirmware =>
    exact ⟨if answer .isDramRestored then resumeEntry else place.address,
      by simp only [ImageTable.get, ImageTable.described, hPlace, Option.elim]⟩
  | hardwareConfig =>
    refine ⟨(table.hardwareConfig.placedAt place (held config answer place)).entry.pc, ?_⟩
    simp only [ImageTable.get, ImageTable.described, hPlace, Option.elim]
    rfl
  | teeConfig =>
    refine ⟨(table.teeConfig.placedAt place (held config answer place)).entry.pc, ?_⟩
    simp only [ImageTable.get, ImageTable.described, hPlace, Option.elim]
    rfl
  | firmwareConfig => exact absurd hImage (by decide)
  | teePager => exact absurd hImage (by decide)
  | teePaged => exact absurd hImage (by decide)

theorem get_described_of_none {image : ImageId} (hImage : image ∈ describedImages)
    (hNone : answer (.imagePlace image) = none) (table : ImageTable) :
    (table.described config answer).get image = table.get image := by
  cases image with
  | tee | nonSecureFirmware | hardwareConfig | teeConfig =>
    simp only [ImageTable.get, ImageTable.described, hNone, Option.elim]
  | firmwareConfig | teePager | teePaged => exact absurd hImage (by decide)

end Placement

namespace Layout

variable {layout : Layout} {size : UInt64}

theorem no_room_iff (hReserved : layout.dramSecureSize.toNat + layout.dramSharedSize.toNat < 2 ^ 64) :
    size < layout.dramSecureSize + layout.dramSharedSize ↔
      size.toNat < layout.dramSecureSize.toNat + layout.dramSharedSize.toNat := by
  rw [UInt64.lt_iff_toNat_lt, Region.toNat_add_of_lt hReserved]

theorem toNat_dramTop_base
    (hReserved : layout.dramSecureSize.toNat + layout.dramSharedSize.toNat < 2 ^ 64)
    (hTop : layout.dramBase.toNat + size.toNat < 2 ^ 64)
    (hRoom : layout.dramSecureSize.toNat + layout.dramSharedSize.toNat ≤ size.toNat) :
    (layout.dramTop size).base.toNat = layout.dramBase.toNat + size.toNat -
      layout.dramSecureSize.toNat - layout.dramSharedSize.toNat := by
  show (layout.dramBase + size - (layout.dramSecureSize + layout.dramSharedSize)).toNat = _
  have hSum := Region.toNat_add_of_lt hReserved
  have hEnd := Region.toNat_add_of_lt hTop
  rw [UInt64.toNat_sub_of_le _ _ (UInt64.le_iff_toNat_le.2 (by omega)), hSum, hEnd]
  omega

theorem dramTop_inside
    (hReserved : layout.dramSecureSize.toNat + layout.dramSharedSize.toNat < 2 ^ 64)
    (hTop : layout.dramBase.toNat + size.toNat < 2 ^ 64)
    (hRoom : layout.dramSecureSize.toNat + layout.dramSharedSize.toNat ≤ size.toNat) {a : Nat}
    (ha : (layout.dramTop size).Covers a) :
    layout.dramBase.toNat ≤ a ∧ a < layout.dramBase.toNat + size.toNat - layout.dramSharedSize.toNat := by
  have hBase := toNat_dramTop_base hReserved hTop hRoom
  obtain ⟨hFrom, hTo, -⟩ := ha
  rw [hBase] at hFrom hTo
  have hSize : (layout.dramTop size).size = layout.dramSecureSize := rfl
  rw [hSize] at hTo
  omega

end Layout

namespace Placement

theorem describedTable_described
    (hReserved : config.layout.dramSecureSize.toNat + config.layout.dramSharedSize.toNat < 2 ^ 64)
    (hTop : config.layout.dramBase.toNat + (answer .dramSize).toNat < 2 ^ 64)
    (hRoom : (answer (.imagePlace .tee)).isSome → config.layout.dramSecureSize.toNat +
      config.layout.dramSharedSize.toNat ≤ (answer .dramSize).toNat) (table : ImageTable) :
    DescribedTable answer config.layout table (table.described config answer) := by
  have hPaged : (answer (.imagePlace .tee)).isSome → (table.described config answer).teePaged =
      { table.teePaged with region := config.layout.dramTop (answer .dramSize) } := by
    intro hSome
    obtain ⟨place, hPlace⟩ := Option.isSome_iff_exists.1 hSome
    simp only [ImageTable.described, hPlace, Option.elim]
    rfl
  constructor
  case own => rfl
  case placed =>
    intro image hImage place hPlace
    obtain ⟨pc, hGet⟩ : ∃ pc, (table.described config answer).get image =
        ((table.get image).placedAt place (held config answer place)).enteredAt pc :=
      get_described_of_some hImage hPlace table
    rw [hGet]
    exact follows_placedAt (Bool.and_eq_true _ _).to_iff _ pc
  case absent => exact fun image hImage hNone => get_described_of_none hImage hNone table
  case teeEntry =>
    intro place hPlace
    simp only [ImageTable.described, hPlace, Option.elim]
    exact entry_enteredAt_placedAt _ _ _ _
  case pager =>
    intro hSome
    obtain ⟨place, hPlace⟩ := Option.isSome_iff_exists.1 hSome
    simp only [ImageTable.described, hPlace, Option.elim]
    rw [(follows_placedAt Iff.rfl table.tee place.address).region]
    rfl
  case paged => exact hPaged
  case pagedBounds =>
    intro hSome
    rw [hPaged hSome]
    exact ⟨Layout.toNat_dramTop_base hReserved hTop (hRoom hSome), rfl⟩
  case pagedInside =>
    intro hSome a ha
    rw [hPaged hSome] at ha
    exact Layout.dramTop_inside hReserved hTop (hRoom hSome) ha
  case noParts =>
    intro hNone
    simp only [ImageTable.described, hNone, Option.elim, and_self]
  case firmwareEntry =>
    intro place hPlace
    simp only [ImageTable.described, hPlace, Option.elim]
    exact entry_enteredAt_placedAt _ _ _ _
  case otherEntries =>
    unfold ImageTable.described
    constructor
    · cases answer (.imagePlace .hardwareConfig) with
      | some place => exact entry_placedAt _ _ _
      | none => rfl
    · cases answer (.imagePlace .teeConfig) with
      | some place => exact entry_placedAt _ _ _
      | none => rfl

/-- Until the configuration was read, nothing is done. -/
theorem eq_self_of_populate_fault {s s' : Session} {t : List Exchange} {result : Except Error Unit}
    {fault : DriverFault} (hRuns : Runs (placeFirmwareConfig.run.run s) t (result, s'))
    (hSteady : Steady answer t)
    (hFault : answer (.populateFirmwareConfig s.placement.config.layout.firmwareConfig) =
      .error fault) : s' = s := by
  have hNothing : Ensures placeFirmwareConfig s fun t _ s' => Steady answer t → s' = s := by
    refine ensures_config_bind.2 (ensures_ask_bind.2 fun reply => ?_)
    cases reply with
    | error _ => exact ensures_throw.2 fun _ => rfl
    | ok _ =>
      intro t' _ _ _ hSteady'
      cases (hSteady' _ List.mem_cons_self).trans hFault
  exact hNothing t result s' hRuns hSteady

/-- When the firmware configuration is brought in, it is refused as invalid exactly if it cannot be
read, and then nothing has changed; otherwise it is refused exactly if it has an entry for the TEE and
DRAM is smaller than its two reservations.  It is refused for nothing else, so no image is unknown to
it.  If it is accepted, the table is as its entries say. -/
theorem firmware_config_places_images {p : Placement} {log : Log.Ring} {t : List Exchange}
    {result : Except Error Unit} {s' : Session}
    (hRuns : Runs (imageLoaded .firmwareConfig p log) t (result, s')) (hSteady : Steady answer t)
    (hReserved : p.config.layout.dramSecureSize.toNat + p.config.layout.dramSharedSize.toNat < 2 ^ 64)
    (hTop : p.config.layout.dramBase.toNat + (answer .dramSize).toNat < 2 ^ 64) :
    (result = .error .configTreeInvalid ↔
      ∃ fault, answer (.populateFirmwareConfig p.config.layout.firmwareConfig) = .error fault) ∧
    (result = .error .configTreeInvalid → s'.placement = p) ∧
    (answer (.populateFirmwareConfig p.config.layout.firmwareConfig) = .ok () →
      (result = .error .invalidRegion ↔ (answer (.imagePlace .tee)).isSome ∧
        (answer .dramSize).toNat <
          p.config.layout.dramSecureSize.toNat + p.config.layout.dramSharedSize.toNat)) ∧
    (∀ e, result = .error e → e = .configTreeInvalid ∨ e = .invalidRegion) ∧
    (result = .ok () → DescribedTable answer p.config.layout p.table s'.placement.table) := by
  have hTable := (turns_placeFirmwareConfig ⟨p, log⟩ rfl t result s' hRuns hSteady).2
  unfold ImageTable.described? at hTable
  simp only [Layout.no_room_iff hReserved] at hTable
  cases hPopulate : answer (.populateFirmwareConfig p.config.layout.firmwareConfig) with
  | error fault =>
    rw [hPopulate] at hTable
    obtain rfl := eq_error_of_map hTable
    have hSame : s'.placement = p :=
      congrArg Session.placement (eq_self_of_populate_fault hRuns hSteady hPopulate)
    refine ⟨⟨fun _ => ⟨fault, rfl⟩, fun _ => rfl⟩, fun _ => hSame, nofun, ?_, nofun⟩
    rintro e ⟨⟩
    exact .inl rfl
  | ok _ =>
    rw [hPopulate] at hTable
    dsimp only at hTable
    split at hTable
    · next hNoRoom =>
      obtain rfl := eq_error_of_map hTable
      refine ⟨⟨nofun, nofun⟩, nofun, fun _ => ⟨fun _ => hNoRoom, fun _ => rfl⟩, ?_, nofun⟩
      rintro e ⟨⟩
      exact .inr rfl
    · next hRoom =>
      obtain ⟨_, rfl, hDescribed⟩ := exists_of_map hTable
      have hEnough (hSome : (answer (.imagePlace .tee)).isSome) :=
        not_lt.1 fun hLess => hRoom ⟨hSome, hLess⟩
      refine ⟨⟨nofun, nofun⟩, nofun, fun _ => ⟨nofun, fun h => absurd h hRoom⟩, nofun, fun _ => ?_⟩
      rw [hDescribed]
      exact describedTable_described hReserved hTop hEnough p.table

/-- Replies of a board that woke from standby: DRAM holds the non-secure firmware, and its firmware
configuration has no entry for the configuration of the TEE. -/
def standbyReply (q : Request) : q.Reply := (standbyBoard.respond () q).1

/-- On that board the TEE is fetched into the on-chip memory, the firmware is left in DRAM, and the
paged part of the TEE gets the secure window, although its entry says nothing about DRAM. -/
theorem standby_config_places_images : ∃ t s',
    Runs (imageLoaded .firmwareConfig (.fresh .standard) (.empty .info)) t (.ok (), s') ∧
      DescribedTable standbyReply Config.standard.layout .unresolved s'.placement.table ∧
      s'.placement.table.tee.skipsLoading = false ∧
      s'.placement.table.nonSecureFirmware.skipsLoading = true ∧
      s'.placement.table.teePaged.region.base = 0xDE000000 ∧
      s'.placement.table.teeConfig = .unresolved .teeConfig := by
  obtain ⟨t, ⟨result, s'⟩, hRuns, hSteady, hEnds⟩ := Program.exists_runs (steadyBoard standbyReply)
    (imageLoaded .firmwareConfig (.fresh .standard) (.empty .info)) ()
    (P := fun t ended => Steady standbyReply t ∧ ended.1 = .ok ())
    ⟨steady_transcript _ _, by decide +kernel⟩
  obtain rfl : result = .ok () := hEnds
  obtain ⟨-, -, -, -, hAccepted⟩ := firmware_config_places_images hRuns hSteady (by decide) (by decide)
  have hTable := hAccepted rfl
  have hTee := hTable.placed .tee (by decide) ⟨0x2FFC0000, 0x19000⟩ rfl
  have hFirmware := hTable.placed .nonSecureFirmware (by decide) ⟨0xC0100000, 0x400000⟩ rfl
  refine ⟨t, s', hRuns, hTable, (hTee.fetched (by decide)).1, ?_, ?_, ?_⟩
  · exact congrArg (·.has .skipLoading) (hFirmware.left (by decide))
  · rw [hTable.paged rfl]
    decide
  · exact hTable.absent .teeConfig (by decide) rfl

end Placement

end BootStage
