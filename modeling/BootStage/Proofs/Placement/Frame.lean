import BootStage.Proofs.Placement.LoadOrder
import BootStage.Proofs.Placement.RefusedTee

/-!
# What bringing in an image may change

A descriptor has eleven fields (`Descriptor.Field`), and nothing but them
(`Descriptor.eq_of_agree`).  `Placement.writes loaded image` lists the fields of `image` that may
change when `loaded` is brought in.  Whatever the board answers and however it ends, bringing in an
image stays within that list and sets no image aside that was to be fetched
(`Placement.frames_afterLoad`).

The actions of the firmware configuration are gone through one by one, with `Frames` as the rule
book.  All ways to bring in the TEE are listed already (`TeeLoad`), so there it is enough to look at
the tables that are left.
-/

namespace BootStage

/-! ## Fields of a descriptor -/

/-- A mask takes a word apart into the bits under it and the others. -/
theorem and_not_or_and (x mask : UInt32) : (x &&& ~~~mask) ||| (x &&& mask) = x := by
  apply UInt32.toBitVec_inj.1
  ext i hi
  simp only [UInt32.toBitVec_or, UInt32.toBitVec_and, UInt32.toBitVec_not, BitVec.getElem_or,
    BitVec.getElem_and, BitVec.getElem_not]
  cases x.toBitVec[i] <;> cases mask.toBitVec[i] <;> rfl

/-- The bit under the mask of the one flag there is. -/
theorem and_two_eq (x : UInt32) : x &&& 2 = if x &&& 2 != 0 then 2 else 0 := by
  have hBit : (x &&& 2).toNat = (x.toNat.testBit 1).toNat * 2 := Nat.and_two_pow x.toNat 1
  cases hTest : x.toNat.testBit 1 <;> rw [hTest] at hBit
  · have hZero : x &&& 2 = 0 := UInt32.toNat_inj.1 hBit
    simp [hZero]
  · have hTwo : x &&& 2 = 2 := UInt32.toNat_inj.1 hBit
    simp [hTwo]

/-- A word of attributes is its flag and the other bits. -/
theorem Flags.eq_of_erase_eq {s s' : Flags LoadAttribute}
    (hOthers : s'.erase .skipLoading = s.erase .skipLoading)
    (hSkips : s'.has .skipLoading = s.has .skipLoading) : s' = s := by
  have hWord : s'.bits &&& ~~~2 = s.bits &&& ~~~2 := congrArg Flags.bits hOthers
  have hSet : (s'.bits &&& 2 != 0) = (s.bits &&& 2 != 0) := hSkips
  have hFlag : s'.bits &&& 2 = s.bits &&& 2 := by rw [and_two_eq s'.bits, hSet, ← and_two_eq]
  apply Flags.ext
  rw [← and_not_or_and s'.bits 2, hWord, hFlag, and_not_or_and]

namespace Descriptor

/-- What can change about a descriptor, one by one. -/
inductive Field
  | id
  | base
  | size
  | mapping
  | imageSize
  | skipLoading
  /-- The bits of the attributes that have no name. -/
  | otherAttributes
  | pc
  | returnAddress
  | arguments
  | state
  deriving DecidableEq

/-- The descriptors have the same value in a field. -/
def Agree (d d' : Descriptor) : Field → Prop
  | .id => d'.id = d.id
  | .base => d'.region.base = d.region.base
  | .size => d'.region.size = d.region.size
  | .mapping => d'.region.attributes = d.region.attributes
  | .imageSize => d'.imageSize = d.imageSize
  | .skipLoading => d'.skipsLoading = d.skipsLoading
  | .otherAttributes => d'.attributes.erase .skipLoading = d.attributes.erase .skipLoading
  | .pc => d'.entry.pc = d.entry.pc
  | .returnAddress => d'.entry.returnAddress = d.entry.returnAddress
  | .arguments =>
    d'.entry.arg0 = d.entry.arg0 ∧ d'.entry.arg1 = d.entry.arg1 ∧ d'.entry.arg2 = d.entry.arg2
  | .state => d'.entry.state = d.entry.state

theorem agree_refl (d : Descriptor) (field : Field) : d.Agree d field := by
  cases field <;> simp [Agree]

theorem Agree.trans {d d' d'' : Descriptor} {field : Field} (h : d.Agree d' field)
    (h' : d'.Agree d'' field) : d.Agree d'' field := by
  cases field <;> simp_all [Agree]

/-- Descriptors that agree in every field are the same. -/
theorem eq_of_agree {d d' : Descriptor} (h : ∀ field, d.Agree d' field) : d' = d := by
  have hRegion : d'.region = d.region := Region.ext (h .base) (h .size) (h .mapping)
  have hAttributes : d'.attributes = d.attributes :=
    Flags.eq_of_erase_eq (h .otherAttributes) (h .skipLoading)
  have hEntry : d'.entry = d.entry := by
    obtain ⟨hArg0, hArg1, hArg2⟩ := h .arguments
    have hPc : d'.entry.pc = d.entry.pc := h .pc
    have hReturn : d'.entry.returnAddress = d.entry.returnAddress := h .returnAddress
    have hState : d'.entry.state = d.entry.state := h .state
    cases hNew : d'.entry
    cases hOld : d.entry
    simp_all
  exact Descriptor.ext (h .id) hRegion (h .imageSize) hAttributes hEntry

/-- Only the listed fields change, and an image that is to be fetched stays so. -/
structure Changed (fields : List Field) (d d' : Descriptor) : Prop where
  kept : ∀ field ∉ fields, d.Agree d' field
  fetched : d.skipsLoading = false → d'.skipsLoading = false

variable {fields fields' : List Field} {d d' d'' : Descriptor}

theorem changed_refl (fields : List Field) (d : Descriptor) : Changed fields d d where
  kept field _ := d.agree_refl field
  fetched hFetched := hFetched

theorem Changed.trans (h : Changed fields d d') (h' : Changed fields d' d'') :
    Changed fields d d'' where
  kept field hKept := (h.kept field hKept).trans (h'.kept field hKept)
  fetched hFetched := h'.fetched (h.fetched hFetched)

theorem Changed.mono (h : Changed fields d d') (hSub : fields ⊆ fields') :
    Changed fields' d d' where
  kept field hKept := h.kept field fun hField => hKept (hSub hField)
  fetched := h.fetched

/-- Where a region begins and ends and how it is mapped. -/
def regionFields : List Field := [.base, .size, .mapping]

theorem changed_region (d : Descriptor) (region : Region) :
    Changed regionFields d { d with region } where
  kept field hKept := by cases field <;> simp_all [regionFields, Agree, skipsLoading]
  fetched hFetched := hFetched

theorem changed_fetch (d : Descriptor) : Changed [.skipLoading] d d.fetch where
  kept field hKept := by cases field <;> simp_all [Agree, fetch, Flags.erase_erase]
  fetched _ := skipsLoading_fetch d

theorem changed_pc (d : Descriptor) (pc : UInt64) :
    Changed [.pc] d { d with entry := { d.entry with pc } } where
  kept field hKept := by cases field <;> simp_all [Agree, skipsLoading]
  fetched hFetched := hFetched

theorem changed_returnAddress (d : Descriptor) (returnAddress : UInt64) :
    Changed [.returnAddress] d { d with entry := { d.entry with returnAddress } } where
  kept field hKept := by cases field <;> simp_all [Agree, skipsLoading]
  fetched hFetched := hFetched

theorem changed_split (d : Descriptor) (parts : Tee.Split) :
    Changed [.pc, .state, .arguments] d
      { d with entry :=
        { d.entry with
          pc := parts.entryPoint, state := parts.state, arg0 := parts.paged.base, arg1 := 0,
          arg2 := 0 } } where
  kept field hKept := by cases field <;> simp_all [Agree, skipsLoading]
  fetched hFetched := hFetched

theorem changed_grown (d : Descriptor) (extra : UInt64) :
    Changed [.size] d { d with region := d.region.grown extra } where
  kept field hKept := by cases field <;> simp_all [Agree, skipsLoading, Region.grown]
  fetched hFetched := hFetched

theorem changed_argument (d : Descriptor) :
    Changed [.arguments] d { d with entry := { d.entry with arg0 := 0 } } where
  kept field hKept := by cases field <;> simp_all [Agree, skipsLoading]
  fetched hFetched := hFetched

theorem changed_placePart (d : Descriptor) (region : Region) :
    Changed (.imageSize :: .skipLoading :: regionFields) d (Placement.placePart region d) := by
  have hPlaced : Changed (.imageSize :: .skipLoading :: regionFields) d
      { d with region, imageSize := region.size } :=
    ⟨fun field hKept => by cases field <;> simp_all [regionFields, Agree],
      fun hFetched => hFetched⟩
  unfold Placement.placePart
  dsimp only
  split
  · exact hPlaced
  · exact hPlaced.trans ((changed_fetch _).mono (by simp))

end Descriptor

/-! ## Tables -/

namespace Placement

open Descriptor (Changed Field regionFields changed_refl)

/-- The fields of `image` that bringing in `loaded` may change. -/
def writes : (loaded image : ImageId) → List Field
  | .firmwareConfig, .firmwareConfig => regionFields
  | .firmwareConfig, .tee => .pc :: .skipLoading :: regionFields
  | .firmwareConfig, .nonSecureFirmware => .pc :: .skipLoading :: regionFields
  | .firmwareConfig, .hardwareConfig => .skipLoading :: regionFields
  | .firmwareConfig, .teeConfig => .skipLoading :: regionFields
  | .firmwareConfig, .teePager => regionFields
  | .firmwareConfig, .teePaged => regionFields
  | .tee, .tee => [.pc, .state, .arguments, .size]
  | .tee, .teePager => .imageSize :: .skipLoading :: regionFields
  | .tee, .teePaged => .imageSize :: .skipLoading :: regionFields
  | .nonSecureFirmware, .tee => [.returnAddress]
  | _, _ => []

/-- The fields that some call may change. -/
def changeable : List Field :=
  [.imageSize, .skipLoading, .pc, .returnAddress, .arguments, .state] ++ regionFields

theorem writes_subset_changeable (loaded image : ImageId) : writes loaded image ⊆ changeable := by
  cases loaded <;> cases image <;> decide

/-- Every descriptor changed within what bringing in `loaded` may change. -/
def Framed (loaded : ImageId) (t t' : ImageTable) : Prop :=
  ∀ image, Changed (writes loaded image) (t.get image) (t'.get image)

variable {loaded : ImageId} {t t' t'' : ImageTable}

theorem framed_refl (loaded : ImageId) (t : ImageTable) : Framed loaded t t :=
  fun _ => changed_refl _ _

theorem Framed.trans (h : Framed loaded t t') (h' : Framed loaded t' t'') : Framed loaded t t'' :=
  fun image => (h image).trans (h' image)

/-- An image of which nothing may change keeps its whole descriptor. -/
theorem Framed.get_eq (h : Framed loaded t t') {image : ImageId}
    (hNone : writes loaded image = []) : t'.get image = t.get image :=
  Descriptor.eq_of_agree fun field => (h image).kept field (by rw [hNone]; exact List.not_mem_nil)

theorem framed_update {image : ImageId} {f : Descriptor → Descriptor}
    (h : Changed (writes loaded image) (t.get image) (f (t.get image))) :
    Framed loaded t (t.update image f) := by
  intro other
  rw [ImageTable.get_update]
  split
  · next hSame =>
    subst hSame
    exact h
  · exact changed_refl _ _

/-! ## Actions -/

/-- The action changes of every table no more than bringing in `loaded` may. -/
def Frames (loaded : ImageId) {α : Type} (a : Placing α) : Prop :=
  ∀ s : Session, Ensures a s fun _ _ s' => Framed loaded s.placement.table s'.placement.table

section Rules

variable {α β : Type}

theorem frames_pure (v : α) : Frames loaded (pure v : Placing α) := fun _ =>
  ensures_pure.2 (framed_refl loaded _)

theorem frames_throw (e : Error) : Frames loaded (throw e : Placing α) := fun _ =>
  ensures_throw.2 (framed_refl loaded _)

theorem frames_lift (p : Program α) : Frames loaded (liftM p : Placing α) := fun _ =>
  ensures_lift.2 fun _ _ _ => framed_refl loaded _

theorem frames_note (level : Log.Level) (pieces : List String) :
    Frames loaded (Placing.note level pieces) := fun _ =>
  ensures_modify.2 (framed_refl loaded _)

theorem frames_config : Frames loaded Placing.config := fun _ =>
  ensures_get_bind.2 (ensures_pure.2 (framed_refl loaded _))

theorem frames_bind {a : Placing α} {f : α → Placing β} (ha : Frames loaded a)
    (hf : ∀ v, Frames loaded (f v)) : Frames loaded (a >>= f) := by
  intro s
  refine ensures_bind.2 ((ha s).mono fun _ x s' hFirst => ?_)
  cases x with
  | ok v => exact (hf v s').mono fun _ _ _ hRest => hFirst.trans hRest
  | error _ => exact hFirst

theorem frames_update {image : ImageId} {f : Descriptor → Descriptor}
    (h : ∀ d, Changed (writes loaded image) d (f d)) : Frames loaded (Placing.update image f) :=
  fun _ => ensures_modify.2 (framed_update (h _))

theorem frames_setRegion {image : ImageId} (region : Region)
    (hWrites : regionFields ⊆ writes loaded image) :
    Frames loaded (Placing.setRegion image region) :=
  frames_update fun d => (d.changed_region region).mono hWrites

theorem frames_enterAt {image : ImageId} (pc : UInt64) (hWrites : Field.pc ∈ writes loaded image) :
    Frames loaded (Placing.enterAt image pc) :=
  frames_update fun d => (d.changed_pc pc).mono (List.cons_subset.2 ⟨hWrites, List.nil_subset _⟩)

theorem frames_dramTopWindow : Frames loaded Placing.dramTopWindow := by
  refine frames_bind frames_config fun config => frames_bind (frames_lift _) fun size => ?_
  cases config.layout.dramTopWindow? size with
  | some window => exact frames_pure window
  | none => exact frames_throw _

end Rules

/-! ## The firmware configuration -/

theorem frames_applyRole {image : ImageId} (hImage : image ∈ describedImages) (place : ImagePlace)
    (restored : Bool) : Frames .firmwareConfig (applyRole image place restored) := by
  cases image with
  | tee =>
    refine frames_bind (frames_enterAt _ (by decide)) fun _ => ?_
    refine frames_bind (frames_setRegion _ (by decide)) fun _ => ?_
    exact frames_bind frames_dramTopWindow fun top => frames_setRegion top (by decide)
  | nonSecureFirmware => exact frames_enterAt _ (by decide)
  | hardwareConfig => exact frames_pure ()
  | teeConfig => exact frames_pure ()
  | firmwareConfig => exact absurd hImage (by decide)
  | teePager => exact absurd hImage (by decide)
  | teePaged => exact absurd hImage (by decide)

theorem frames_applyEntry {image : ImageId} (hImage : image ∈ describedImages) (place : ImagePlace)
    (restored : Bool) : Frames .firmwareConfig (applyEntry image place restored) := by
  have hWrites : ∀ image ∈ describedImages,
      .skipLoading :: regionFields ⊆ writes .firmwareConfig image := by decide
  obtain ⟨hSkip, hRegion⟩ := List.cons_subset.1 (hWrites image hImage)
  refine frames_bind frames_config fun config => ?_
  refine frames_bind (frames_setRegion _ hRegion) fun _ => ?_
  -- The role comes last, whether the image is fetched or not.
  have hRest : Frames .firmwareConfig (do
      Placing.note .debug
        [image.name, " at ", (Region.window place.address place.maxSize).describe]
      applyRole image place restored) :=
    frames_bind (frames_note _ _) fun _ => frames_applyRole hImage place restored
  dsimp only
  split
  · refine frames_bind (frames_update fun d => ?_) fun _ => hRest
    exact d.changed_fetch.mono (List.cons_subset.2 ⟨hSkip, List.nil_subset _⟩)
  · exact hRest

theorem frames_applyEntries (restored : Bool) {images : List ImageId}
    (hImages : ∀ image ∈ images, image ∈ describedImages) :
    Frames .firmwareConfig (applyEntries restored images) := by
  induction images with
  | nil => exact frames_pure ()
  | cons image images ih =>
    obtain ⟨hImage, hRest⟩ := List.forall_mem_cons.1 hImages
    refine frames_bind (frames_lift _) fun found => ?_
    cases found with
    | some place => exact frames_bind (frames_applyEntry hImage place restored) fun _ => ih hRest
    | none => exact ih hRest

theorem frames_placeFirmwareConfig : Frames .firmwareConfig placeFirmwareConfig := by
  refine frames_bind frames_config fun config => frames_bind (frames_lift _) fun reply => ?_
  cases reply with
  | error _ => exact frames_throw _
  | ok _ =>
    refine frames_bind (frames_setRegion _ (by decide)) fun _ => ?_
    exact frames_bind (frames_lift _) fun restored => frames_applyEntries restored fun _ h => h

/-! ## The TEE -/

section Tee

variable (t : ImageTable)

theorem framed_enteringTee (pc : UInt64) : Framed .tee t (t.enteringTee pc) :=
  framed_update ((Descriptor.changed_pc _ pc).mono (by decide))

theorem framed_splitTee (parts : Tee.Split) : Framed .tee t (t.splitTee parts) := by
  unfold ImageTable.splitTee
  refine ((framed_update ?_).trans (framed_update ?_)).trans (framed_update ?_)
  · exact (Descriptor.changed_split _ parts).mono (by decide)
  · exact Descriptor.changed_placePart _ parts.pager
  · exact Descriptor.changed_placePart _ parts.paged

theorem framed_growingTee (extra : UInt64) : Framed .tee t (t.growingTee extra) :=
  framed_update ((Descriptor.changed_grown _ extra).mono (by decide))

theorem framed_clearingArgument : Framed .tee t t.clearingArgument :=
  framed_update ((Descriptor.changed_argument _).mono (by decide))

end Tee

variable {s s' : Session} {exchanges : List Exchange} {result : Except Error Unit}

theorem ContainerPlaced.framed {bytes : List UInt8} {base : UInt64}
    (h : ContainerPlaced s bytes base exchanges result s') :
    Framed .tee s.placement.table s'.placement.table := by
  cases h with
  | noWindow _ _ => exact framed_refl _ _
  | refused _ _ => exact framed_refl _ _
  | split _ _ => exact framed_splitTee _ _

theorem MonolithicPlaced.framed (h : MonolithicPlaced s result s') :
    Framed .tee s.placement.table s'.placement.table := by
  cases h with
  | noRegion _ => exact framed_refl _ _
  | tooLarge _ _ => exact framed_refl _ _
  | grown _ _ _ => exact (framed_growingTee _ _).trans (framed_clearingArgument _)
  | atPagerWindow _ _ => exact (framed_enteringTee _ _).trans (framed_clearingArgument _)

theorem TeeLoad.framed (h : TeeLoad s exchanges result s') :
    Framed .tee s.placement.table s'.placement.table := by
  have hEntered : Framed .tee s.placement.table s.enteringTee.placement.table :=
    framed_enteringTee _ _
  cases h with
  | resumed _ => exact framed_enteringTee _ _
  | container _ hPlaced hKept =>
    rw [hKept.table_eq]
    exact hEntered.trans hPlaced.framed
  | noContainer _ hPlaced => exact hEntered.trans hPlaced.framed
  | monolithic _ hPlaced hKept =>
    rw [hKept.table_eq]
    exact hEntered.trans hPlaced.framed
  | noMonolithic _ hPlaced => exact hEntered.trans hPlaced.framed

/-! ## One image -/

theorem ensures_handOffNonSecure (s : Session) :
    Ensures handOffNonSecure s fun t x s' =>
      t = [⟨.flushCache s.placement.table.nonSecureFirmware.region.base
        s.placement.table.nonSecureFirmware.region.size, ()⟩] ∧ x = .ok () ∧
      Framed .nonSecureFirmware s.placement.table s'.placement.table := by
  refine ensures_table_bind.2 (ensures_modify_bind.2 (ensures_lift.2 fun t _ hRuns => ?_))
  refine ⟨runs_ask_iff.1 hRuns, rfl, framed_update ?_⟩
  exact Descriptor.changed_returnAddress _ _

theorem frames_afterLoad (image : ImageId) : Frames image (afterLoad image) := by
  cases image with
  | firmwareConfig => exact frames_placeFirmwareConfig
  | tee => exact fun s => (ensures_placeTee s).mono fun _ _ _ hLoad => hLoad.framed
  | nonSecureFirmware => exact fun s => (ensures_handOffNonSecure s).mono fun _ _ _ h => h.2.2
  | teePager => exact frames_pure ()
  | teePaged => exact frames_pure ()
  | hardwareConfig => exact frames_pure ()
  | teeConfig => exact frames_pure ()

end Placement

end BootStage
