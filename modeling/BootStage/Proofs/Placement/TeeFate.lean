import BootStage.Proofs.Placement.Turns

/-!
# What becomes of the TEE

Of the table, nothing but regions has a say in what becomes of the TEE when it is brought in: the
region of the TEE, those of its two parts and that of its configuration.  So what is done for the TEE
comes in two halves, a decision about the regions and what then happens to the table.

    the decision   teeFate? config answer t.regions t.tee.region.base
    the change     ImageTable.settle
    both           turns_placeTee
-/

namespace BootStage

/-- What becomes of the TEE once its image was looked at. -/
inductive TeeFate
  /-- It goes on at `pc`, where it was left. -/
  | resumed (pc : UInt64)
  | split (parts : Tee.Split)
  /-- It is monolithic, and its region takes in so many bytes of its configuration. -/
  | grown (extra : UInt64)
  /-- It is monolithic and is entered at `pc`. -/
  | entered (pc : UInt64)

namespace TeeFate

/-- What it does to the descriptor of the TEE. -/
def onTee : TeeFate → Descriptor → Descriptor
  | resumed pc, d => { d with entry := { d.entry with pc } }
  | split parts, d =>
    { d with entry :=
      { d.entry with
        pc := parts.entryPoint, state := parts.state, arg0 := parts.paged.base, arg1 := 0, arg2 := 0 } }
  | grown extra, d =>
    { d with region := d.region.grown extra, entry := { d.entry with arg0 := 0 } }
  | entered pc, d => { d with entry := { d.entry with pc, arg0 := 0 } }

/-- What it does to the descriptor of a part; only a container has parts. -/
def onPart (part : Tee.Split → Region) : TeeFate → Descriptor → Descriptor
  | split parts, d => Placement.placePart (part parts) d
  | _, d => d

end TeeFate

namespace ImageTable

def regions (t : ImageTable) (image : ImageId) : Region := (t.get image).region

theorem regions_enteringTee (t : ImageTable) (pc : UInt64) : (t.enteringTee pc).regions = t.regions := by
  funext image
  cases image <;> rfl

/-- The table in which the TEE is entered at the base of its region. -/
def enteringBase (t : ImageTable) : ImageTable := t.enteringTee t.tee.region.base

/-- The table in which the TEE has met its fate. -/
def settle (t : ImageTable) (fate : TeeFate) : ImageTable :=
  { t with
    tee := fate.onTee t.tee
    teePager := fate.onPart (·.pager) t.teePager
    teePaged := fate.onPart (·.paged) t.teePaged }

/-- The fate of the TEE is nothing to other images than the TEE and its parts. -/
theorem get_settle {image : ImageId} (hTee : image ≠ .tee) (hPager : image ≠ .teePager)
    (hPaged : image ≠ .teePaged) (t : ImageTable) (fate : TeeFate) :
    (t.settle fate).get image = t.get image := by
  cases image with
  | tee | teePager | teePaged => contradiction
  | firmwareConfig | nonSecureFirmware | hardwareConfig | teeConfig => rfl

end ImageTable

namespace Placement

variable {answer : (q : Request) → q.Reply} {config : Config}

/-- A monolithic TEE grows with fixed windows, and is entered in the window of the pager otherwise. -/
def monolithicFate? (config : Config) (regions : ImageId → Region) : Except Error TeeFate :=
  if (regions .tee).isValid then
    match config.teeWindows with
    | .fixed =>
      if (regions .tee).size.toNat + (regions .teeConfig).size.toNat < 0x10000000000000000 then
        .ok (.grown (regions .teeConfig).size)
      else .error .invalidRegion
    | .dramTop => .ok (.entered config.layout.teePager.base)
  else .error .noTeeEntryPoint

/-- The windows for the parts of a container, if there is room for them. -/
def teeWindows? (config : Config) (answer : (q : Request) → q.Reply) (regions : ImageId → Region)
    (bytes : List UInt8) : Option Tee.Windows :=
  match config.teeWindows with
  | .fixed => some ⟨regions .teePager, regions .teePaged⟩
  | .dramTop => (config.layout.dramTopWindow? (answer .dramSize)).map fun top =>
    ⟨if (Tee.pagerAddress? bytes).any config.layout.teePager.contains then config.layout.teePager
      else top, top⟩

/-- A container is split, if there are windows for its parts and it can be read. -/
def containerFate? (config : Config) (answer : (q : Request) → q.Reply) (regions : ImageId → Region)
    (bytes : List UInt8) (base : UInt64) : Except Error TeeFate :=
  match teeWindows? config answer regions bytes with
  | some windows =>
    match Tee.Image.parse bytes base windows config.reservedRegions with
    | .ok (.split parts) => .ok (.split parts)
    | .ok (.monolithic _) => monolithicFate? config regions
    | .error e => .error e
  | none => .error .invalidRegion

/-- What the board has at the base of the TEE's region. -/
def teeBytes (answer : (q : Request) → q.Reply) (base : UInt64) : List UInt8 :=
  (answer (.imageBytes base Tee.headerCapacity)).getD []

/-- What becomes of the TEE that is found at `base`. -/
def teeFate? (config : Config) (answer : (q : Request) → q.Reply) (regions : ImageId → Region)
    (base : UInt64) : Except Error TeeFate :=
  if Tee.hasSignature (teeBytes answer base) then
    if answer .isDramRestored then .ok (.resumed (answer .savedTeeEntry))
    else containerFate? config answer regions (teeBytes answer base) base
  else monolithicFate? config regions

/-! ## The three ways -/

theorem monolithicFate?_of_invalid {regions : ImageId → Region}
    (hInvalid : (regions .tee).isValid = false) :
    monolithicFate? config regions = .error .noTeeEntryPoint :=
  if_neg (Bool.eq_false_iff.1 hInvalid)

theorem monolithicFate?_of_valid {regions : ImageId → Region} (hValid : (regions .tee).isValid = true) :
    monolithicFate? config regions = match config.teeWindows with
      | .fixed =>
        if (regions .tee).size.toNat + (regions .teeConfig).size.toNat < 0x10000000000000000 then
          .ok (.grown (regions .teeConfig).size)
        else .error .invalidRegion
      | .dramTop => .ok (.entered config.layout.teePager.base) :=
  if_pos hValid

theorem MonolithicPlaced.fate {s s' : Session} {x : Except Error Unit} (h : MonolithicPlaced s x s')
    (hValid : s.placement.table.tee.region.isValid = true) :
    s'.placement.config = s.placement.config ∧ (x.map fun _ => s'.placement.table) =
      (monolithicFate? s.placement.config s.placement.table.regions).map s.placement.table.settle := by
  have hFate : monolithicFate? s.placement.config s.placement.table.regions = _ :=
    monolithicFate?_of_valid hValid
  cases h with
  | noRegion hInvalid => cases hInvalid.symm.trans hValid
  | tooLarge hFixed hLarge =>
    rw [hFixed] at hFate
    rw [hFate.trans (if_neg (Nat.not_lt.2 hLarge))]
    exact ⟨rfl, rfl⟩
  | grown _ hFixed hFits =>
    rw [hFixed] at hFate
    rw [hFate.trans (if_pos hFits)]
    exact ⟨rfl, rfl⟩
  | atPagerWindow _ hTop =>
    rw [hTop] at hFate
    rw [hFate]
    exact ⟨rfl, rfl⟩

theorem turns_placeMonolithic : Turns answer config placeMonolithic fun t =>
    (monolithicFate? config t.regions).map t.settle := by
  rintro s rfl
  cases hValid : s.placement.table.tee.region.isValid with
  | true => exact (ensures_placeMonolithic s).mono fun _ _ _ hPlaced _ => hPlaced.2.fate hValid
  | false =>
    refine ensures_table_bind.2 ?_
    rw [if_pos (Bool.eq_false_iff.1 hValid)]
    dsimp only
    rw [monolithicFate?_of_invalid hValid]
    exact ensures_bind.2 (ensures_throw.2 fun _ => ⟨rfl, rfl⟩)

theorem teeWindows?_of_fixed (hFixed : config.teeWindows = .fixed) (regions : ImageId → Region)
    (bytes : List UInt8) :
    teeWindows? config answer regions bytes = some ⟨regions .teePager, regions .teePaged⟩ := by
  unfold teeWindows?
  rw [hFixed]

/-- At the top of DRAM, the windows are the same whatever the regions are. -/
theorem teeWindows?_of_dramTop (hTop : config.teeWindows = .dramTop) (regions regions' : ImageId → Region)
    (bytes : List UInt8) :
    teeWindows? config answer regions bytes = teeWindows? config answer regions' bytes := by
  unfold teeWindows?
  rw [hTop]

theorem Windowed.teeWindows?_eq {t : List Exchange} {windows : Tee.Windows} {table : ImageTable}
    {bytes : List UInt8}
    (h : Windowed config table.teePager.region table.teePaged.region bytes t windows)
    (hSteady : Steady answer t) : teeWindows? config answer table.regions bytes = some windows := by
  unfold teeWindows?
  cases h with
  | fixed hFixed =>
    rw [hFixed]
    rfl
  | @dramTop size top hTop hWindow =>
    obtain rfl : size = answer .dramSize := hSteady _ (List.mem_singleton_self _)
    rw [hTop]
    simp only [hWindow, Option.map_some]

theorem turns_placeContainer {bytes : List UInt8} (base : UInt64)
    (hSigned : Tee.hasSignature bytes = true) :
    Turns answer config (placeContainer bytes base) fun t =>
      (containerFate? config answer t.regions bytes base).map t.settle := by
  rintro s rfl
  refine (ensures_placeContainer s base hSigned).mono ?_
  intro t x s' hPlaced hSteady
  dsimp only
  unfold containerFate?
  cases hPlaced with
  | @noWindow size hTop hNone =>
    obtain rfl : size = answer .dramSize := hSteady _ (List.mem_singleton_self _)
    have hWindows : teeWindows? s.placement.config answer s.placement.table.regions bytes = none := by
      unfold teeWindows?
      rw [hTop]
      simp only [hNone, Option.map_none]
    rw [hWindows]
    exact ⟨rfl, rfl⟩
  | refused hWindowed hParse =>
    rw [hWindowed.teeWindows?_eq hSteady]
    dsimp only
    rw [hParse]
    exact ⟨rfl, rfl⟩
  | split hWindowed hParse =>
    rw [hWindowed.teeWindows?_eq hSteady]
    dsimp only
    rw [hParse]
    exact ⟨rfl, rfl⟩

/-- A container that is not refused is split. -/
theorem containerFate?_eq_ok_iff {regions : ImageId → Region} {bytes : List UInt8} {base : UInt64}
    {fate : TeeFate} (hSigned : Tee.hasSignature bytes = true) :
    containerFate? config answer regions bytes base = .ok fate ↔
      ∃ windows parts, teeWindows? config answer regions bytes = some windows ∧
        Tee.Image.parse bytes base windows config.reservedRegions = .ok (.split parts) ∧
        fate = .split parts := by
  unfold containerFate?
  constructor
  · intro h
    split at h
    · next windows hWindows =>
      split at h
      · next parts hParse =>
        cases h
        exact ⟨windows, parts, hWindows, hParse, rfl⟩
      · next address hParse =>
        have hUnsigned := ((Tee.parse_eq_monolithic_iff address).1 hParse).1
        exact absurd ((Tee.hasSignature_iff bytes).1 hSigned) hUnsigned
      · cases h
    · cases h
  · rintro ⟨windows, parts, hWindows, hParse, rfl⟩
    simp only [hWindows, hParse]

/-! ## The whole load -/

theorem ParametersKept.config_eq {s s' : Session} {t : List Exchange} (h : ParametersKept s t s') :
    s'.placement.config = s.placement.config := by
  cases h with
  | elsewhere _ => rfl
  | kept _ => rfl
  | lost _ _ =>
    show (s.placement.addDegraded _ _).config = _
    unfold addDegraded
    split <;> rfl

theorem turns_keepParameters : Turns answer config keepParameters .ok := by
  rintro s rfl
  refine (ensures_keepParameters s).mono ?_
  rintro t x s' ⟨rfl, hKept⟩ -
  exact ⟨hKept.config_eq, congrArg Except.ok hKept.table_eq⟩

theorem turns_resumeTee : Turns answer config resumeTee fun t =>
    .ok (t.settle (.resumed (answer .savedTeeEntry))) := by
  have hClock : Turns answer config
      (if config.layout.backupMemory.contains (answer .savedTeeEntry) then
        Board.enableClock .backupMemory else pure () : Placing Unit) .ok := by
    split
    · exact turns_lift _
    · exact turns_pure
  exact turns_ask_bind (turns_update_bind (turns_config_bind hClock))

/-- What bringing in the TEE makes of a table. -/
theorem turns_placeTee : Turns answer config placeTee fun t =>
    (teeFate? config answer t.regions t.tee.region.base).map t.enteringBase.settle := by
  have hEntered (base : UInt64) : Turns answer config
      (do
        let bytes := (← Board.imageBytes base Tee.headerCapacity).getD []
        if Tee.hasSignature bytes then
          if ← Board.isDramRestored then resumeTee
          else
            placeContainer bytes base
            keepParameters
        else
          placeMonolithic
          keepParameters)
      fun t => (teeFate? config answer t.regions base).map t.settle := by
    refine turns_ask_bind ?_
    unfold teeFate?
    show Turns answer config (if Tee.hasSignature (teeBytes answer base) = true then _ else _) _
    split
    · next hSigned =>
      refine turns_ask_bind ?_
      split
      · exact turns_resumeTee
      · exact ((turns_placeContainer base hSigned).seq turns_keepParameters).congr fun _ => bind_pure _
    · exact (turns_placeMonolithic.seq turns_keepParameters).congr fun _ => bind_pure _
  refine (turns_table_bind fun table => turns_update_bind (hEntered table.tee.region.base)).congr
    fun t => ?_
  exact congrArg (fun regions => (teeFate? config answer regions _).map t.enteringBase.settle)
    (t.regions_enteringTee t.tee.region.base)

end Placement

end BootStage
