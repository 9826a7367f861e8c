import BootStage.Proofs.Ensures
import BootStage.Proofs.Placement.Loads
import BootStage.Proofs.Region

/-!
# Placement after standby

DRAM can keep its content over standby.  On a board where it did (`Resuming`), the images that the
firmware configuration puts in DRAM are not fetched again, the TEE goes on where it left off, and
the non-secure firmware is entered at an address that tells the TEE so (`Resumed`).

`Succeeds` is the rule book: an action succeeds in a certain way as long as the board answers as one
that resumes.  There is one rule for each function, and the walk over the firmware configuration is
an induction over the images that are left (`Walked`).

    firmware configuration, then TEE and non-secure firmware in either order → all three succeed
      and leave the table resumed                                      (loads_resume_after_standby)
-/

namespace BootStage

/-! ## A board that resumes -/

/-- The board answers as one whose DRAM kept its content over standby: the firmware configuration
can be read, DRAM has room for both reservations, and the TEE image carries the signature.  What
follows the signature is not looked at. -/
structure Resuming (config : Config) (t : List Exchange) : Prop where
  populated : ∀ window fault, (⟨.populateFirmwareConfig window, .error fault⟩ : Exchange) ∉ t
  restored : ∀ restored : Bool, (⟨.isDramRestored, restored⟩ : Exchange) ∈ t → restored = true
  roomy : ∀ size : UInt64, (⟨.dramSize, size⟩ : Exchange) ∈ t →
    config.layout.dramSecureSize.toNat + config.layout.dramSharedSize.toNat ≤ size.toNat
  signed : ∀ base length, ∀ found : Option (List UInt8),
    (⟨.imageBytes base length, found⟩ : Exchange) ∈ t →
      ∃ bytes, found = some bytes ∧ Tee.hasSignature bytes = true

theorem Resuming.mono {config : Config} {t t' : List Exchange} (h : Resuming config t')
    (hSub : t ⊆ t') : Resuming config t where
  populated window fault hMem := h.populated window fault (hSub hMem)
  restored restored hMem := h.restored restored (hSub hMem)
  roomy size hMem := h.roomy size (hSub hMem)
  signed base length found hMem := h.signed base length found (hSub hMem)

theorem Layout.exists_dramTopWindow {layout : Layout} {size : UInt64}
    (h : layout.dramSecureSize.toNat + layout.dramSharedSize.toNat ≤ size.toNat) :
    ∃ window, layout.dramTopWindow? size = some window := by
  have hSize := size.toNat_lt
  have hSum : (layout.dramSecureSize + layout.dramSharedSize).toNat =
      layout.dramSecureSize.toNat + layout.dramSharedSize.toNat :=
    Region.toNat_add_of_lt (by omega)
  have hRoom : ¬ size < layout.dramSecureSize + layout.dramSharedSize := by
    rw [UInt64.lt_iff_toNat_lt, hSum]
    omega
  unfold dramTopWindow?
  exact ⟨_, if_neg hRoom⟩

/-- After standby an image is not fetched if DRAM still holds it; one that has no place is not
fetched either. -/
def Layout.skipsAfterStandby (layout : Layout) : Option ImagePlace → Bool
  | some place => layout.isDramAddress place.address
  | none => true

theorem Flags.has_erase_self {φ : Type} [Flag φ] (s : Flags φ) (f : φ) :
    (s.erase f).has f = false := by
  unfold has erase
  rw [UInt32.and_assoc]
  simp

theorem Flags.erase_erase {φ : Type} [Flag φ] (s : Flags φ) (f : φ) :
    (s.erase f).erase f = s.erase f := by
  unfold erase
  rw [UInt32.and_assoc, UInt32.and_self]

theorem Descriptor.skipsLoading_fetch (d : Descriptor) : d.fetch.skipsLoading = false :=
  Flags.has_erase_self d.attributes .skipLoading

/-! ## Actions that succeed -/

namespace Placement

/-- As long as the board resumes, the action succeeds, and `Q` holds of its exchanges, its value and
what it leaves. -/
def Succeeds (config : Config) (s : Session) {α : Type} (a : Placing α)
    (Q : List Exchange → α → Session → Prop) : Prop :=
  Ensures a s fun t x s' => Resuming config t → ∃ v, x = .ok v ∧ Q t v s'

variable {config : Config} {s : Session} {α β : Type}

theorem Succeeds.mono {a : Placing α} {Q Q' : List Exchange → α → Session → Prop}
    (h : Succeeds config s a Q) (hQ : ∀ t v s', Q t v s' → Q' t v s') :
    Succeeds config s a Q' := by
  refine Ensures.mono h fun t x s' hFirst hResuming => ?_
  obtain ⟨v, hOk, hHolds⟩ := hFirst hResuming
  exact ⟨v, hOk, hQ t v s' hHolds⟩

theorem succeeds_pure {v : α} {Q : List Exchange → α → Session → Prop} (h : Q [] v s) :
    Succeeds config s (pure v) Q :=
  ensures_pure.2 fun _ => ⟨v, rfl, h⟩

theorem succeeds_modify {f : Session → Session} {Q : List Exchange → Unit → Session → Prop}
    (h : Q [] () (f s)) : Succeeds config s (modify f) Q :=
  ensures_modify.2 fun _ => ⟨(), rfl, h⟩

theorem Succeeds.bind {a : Placing α} {f : α → Placing β}
    {Q : List Exchange → α → Session → Prop} {Q' : List Exchange → β → Session → Prop}
    (ha : Succeeds config s a Q)
    (hf : ∀ t v s', Q t v s' → Succeeds config s' (f v) fun t' w s'' => Q' (t ++ t') w s'') :
    Succeeds config s (a >>= f) Q' := by
  refine ensures_bind.2 (Ensures.mono ha fun t x s' hFirst => ?_)
  cases x with
  | error e =>
    intro hResuming
    obtain ⟨_, hOk, -⟩ := hFirst hResuming
    cases hOk
  | ok v =>
    intro t' y s'' hRuns hResuming
    obtain ⟨_, hOk, hHolds⟩ := hFirst (hResuming.mono (List.subset_append_left t t'))
    cases hOk
    exact hf t v s' hHolds t' y s'' hRuns (hResuming.mono (List.subset_append_right t t'))

variable {Q : List Exchange → β → Session → Prop}

theorem succeeds_modify_bind {g : Session → Session} {f : Unit → Placing β}
    (h : Succeeds config (g s) (f ()) Q) : Succeeds config s (modify g >>= f) Q :=
  ensures_modify_bind.2 h

theorem succeeds_ask_bind {q : Request} {f : q.Reply → Placing β}
    (h : ∀ reply, Resuming config [⟨q, reply⟩] →
      Succeeds config s (f reply) fun t w s' => Q (⟨q, reply⟩ :: t) w s') :
    Succeeds config s ((liftM (Program.ask q) : Placing q.Reply) >>= f) Q := by
  refine ensures_lift_bind.2 fun t reply hRuns => ?_
  rw [runs_ask_iff.1 hRuns]
  intro t' y s' hRest hResuming
  have hFirst := hResuming.mono (List.subset_append_left [⟨q, reply⟩] t')
  exact h reply hFirst t' y s' hRest (hResuming.mono (List.subset_append_right _ t'))

theorem succeeds_ask {q : Request} {Q : List Exchange → q.Reply → Session → Prop}
    (h : ∀ reply, Q [⟨q, reply⟩] reply s) :
    Succeeds config s (liftM (Program.ask q) : Placing q.Reply) Q := by
  refine ensures_lift.2 fun t reply hRuns _ => ⟨reply, rfl, ?_⟩
  rw [runs_ask_iff.1 hRuns]
  exact h reply

theorem succeeds_config_bind {f : Config → Placing β} (hConfig : s.placement.config = config)
    (h : Succeeds config s (f config) Q) : Succeeds config s (Placing.config >>= f) Q := by
  refine ensures_bind.2 (ensures_get_bind.2 (ensures_pure.2 ?_))
  rw [hConfig]
  exact h

theorem succeeds_table_bind {f : ImageTable → Placing β}
    (h : Succeeds config s (f s.placement.table) Q) : Succeeds config s (Placing.table >>= f) Q :=
  ensures_bind.2 (ensures_get_bind.2 (ensures_pure.2 h))

/-! ## One entry of the firmware configuration -/

/-- What is fetched stays as it was, and so does a non-secure firmware that is to resume. -/
structure Kept (p q : Placement) : Prop where
  config : q.config = p.config
  attributes : ∀ image, (q.table.get image).attributes = (p.table.get image).attributes
  firmware : p.table.nonSecureFirmware.entry.pc = resumeEntry →
    q.table.nonSecureFirmware.entry.pc = resumeEntry

theorem Kept.refl (p : Placement) : Kept p p := ⟨rfl, fun _ => rfl, fun h => h⟩

theorem Kept.trans {p q r : Placement} (h : Kept p q) (h' : Kept q r) : Kept p r where
  config := h'.config.trans h.config
  attributes image := (h'.attributes image).trans (h.attributes image)
  firmware hResumes := h'.firmware (h.firmware hResumes)

/-- A descriptor is rewritten; what is fetched and how a resuming firmware is entered stay. -/
theorem succeeds_update {image : ImageId} {f : Descriptor → Descriptor}
    (hAttributes : ∀ d, (f d).attributes = d.attributes)
    (hEntry : image = .nonSecureFirmware → ∀ d, d.entry.pc = resumeEntry →
      (f d).entry.pc = resumeEntry) :
    Succeeds config s (Placing.update image f) fun t _ s' =>
      t = [] ∧ Kept s.placement s'.placement := by
  refine succeeds_modify ⟨rfl, rfl, fun image' => ?_, fun hResumes => ?_⟩
  · show ((s.placement.table.update image f).get image').attributes = _
    rw [ImageTable.get_update]
    split
    · exact hAttributes _
    · rfl
  · show ((s.placement.table.update image f).get .nonSecureFirmware).entry.pc = resumeEntry
    rw [ImageTable.get_update]
    split
    · next hSame => exact hEntry hSame _ hResumes
    · exact hResumes

theorem succeeds_setRegion (image : ImageId) (region : Region) :
    Succeeds config s (Placing.setRegion image region) fun t _ s' =>
      t = [] ∧ Kept s.placement s'.placement :=
  succeeds_update (fun _ => rfl) fun _ _ hResumes => hResumes

theorem succeeds_enterAt {image : ImageId} {pc : UInt64}
    (h : image = .nonSecureFirmware → pc = resumeEntry) :
    Succeeds config s (Placing.enterAt image pc) fun t _ s' =>
      t = [] ∧ Kept s.placement s'.placement :=
  succeeds_update (fun _ => rfl) fun hSame _ _ => h hSame

theorem succeeds_note (level : Log.Level) (pieces : List String) :
    Succeeds config s (Placing.note level pieces) fun t _ s' =>
      t = [] ∧ Kept s.placement s'.placement :=
  succeeds_modify ⟨rfl, .refl s.placement⟩

theorem succeeds_dramTopWindow (hConfig : s.placement.config = config) :
    Succeeds config s Placing.dramTopWindow fun t _ s' =>
      s' = s ∧ ∀ e ∈ t, e.request = .dramSize := by
  refine succeeds_config_bind hConfig (succeeds_ask_bind fun size hResuming => ?_)
  obtain ⟨window, hTop⟩ :=
    Layout.exists_dramTopWindow (hResuming.roomy size (List.mem_singleton_self _))
  rw [hTop]
  refine succeeds_pure ⟨rfl, fun e he => ?_⟩
  rw [List.mem_singleton.1 he]

theorem succeeds_applyRole {image : ImageId} {place : ImagePlace}
    (hImage : image ∈ describedImages) (hConfig : s.placement.config = config) :
    Succeeds config s (applyRole image place true) fun t _ s' =>
      Kept s.placement s'.placement ∧ ∀ e ∈ t, e.request = .dramSize := by
  have hSilent : ∀ e ∈ ([] : List Exchange), e.request = .dramSize := fun _ he =>
    absurd he List.not_mem_nil
  cases image with
  | tee =>
    refine (succeeds_enterAt (by exact nofun)).bind ?_
    rintro _ _ s₁ ⟨rfl, h₁⟩
    refine (succeeds_setRegion _ _).bind ?_
    rintro _ _ s₂ ⟨rfl, h₂⟩
    refine (succeeds_dramTopWindow ((h₁.trans h₂).config.trans hConfig)).bind ?_
    rintro t window _ ⟨rfl, hAsks⟩
    refine (succeeds_setRegion _ _).mono ?_
    rintro _ _ s₃ ⟨rfl, h₃⟩
    refine ⟨(h₁.trans h₂).trans h₃, ?_⟩
    simpa using hAsks
  | nonSecureFirmware =>
    refine (succeeds_enterAt fun _ => rfl).mono ?_
    rintro _ _ s' ⟨rfl, hKept⟩
    exact ⟨hKept, hSilent⟩
  | hardwareConfig => exact succeeds_pure ⟨.refl _, hSilent⟩
  | teeConfig => exact succeeds_pure ⟨.refl _, hSilent⟩
  | firmwareConfig => exact absurd hImage (by decide)
  | teePager => exact absurd hImage (by decide)
  | teePaged => exact absurd hImage (by decide)

/-- What was found for one image has been carried out. -/
structure Entered (layout : Layout) (image : ImageId) (found : Option ImagePlace)
    (p q : Placement) : Prop where
  config : q.config = p.config
  skips : (q.table.get image).skipsLoading = layout.skipsAfterStandby found
  others : ∀ other, other ≠ image →
    (q.table.get other).attributes = (p.table.get other).attributes
  firmware : p.table.nonSecureFirmware.entry.pc = resumeEntry →
    q.table.nonSecureFirmware.entry.pc = resumeEntry

section Entered

variable {layout : Layout} {image : ImageId} {found : Option ImagePlace} {p q r : Placement}

/-- An image that is skipped may stay so if it is to be. -/
theorem Kept.entered (h : Kept p q) (hSkipped : (p.table.get image).skipsLoading = true)
    (hSkips : layout.skipsAfterStandby found = true) : Entered layout image found p q where
  config := h.config
  skips := by
    rw [hSkips]
    unfold Descriptor.skipsLoading
    rw [h.attributes]
    exact hSkipped
  others other _ := h.attributes other
  firmware := h.firmware

theorem Kept.trans_entered (h : Kept p q) (h' : Entered layout image found q r) :
    Entered layout image found p r where
  config := h'.config.trans h.config
  skips := h'.skips
  others other hOther := (h'.others other hOther).trans (h.attributes other)
  firmware hResumes := h'.firmware (h.firmware hResumes)

theorem Entered.trans_kept (h : Entered layout image found p q) (h' : Kept q r) :
    Entered layout image found p r where
  config := h'.config.trans h.config
  skips := by
    rw [← h.skips]
    unfold Descriptor.skipsLoading
    rw [h'.attributes]
  others other hOther := (h'.attributes other).trans (h.others other hOther)
  firmware hResumes := h'.firmware (h.firmware hResumes)

end Entered

/-- An image that DRAM does not hold is fetched. -/
theorem succeeds_fetch {layout : Layout} {image : ImageId} {place : ImagePlace}
    (hLost : layout.isDramAddress place.address = false) :
    Succeeds config s (Placing.update image Descriptor.fetch) fun t _ s' =>
      t = [] ∧ Entered layout image (some place) s.placement s'.placement := by
  refine succeeds_modify ⟨rfl, rfl, ?_, fun other hOther => ?_, fun hResumes => ?_⟩
  · show ((s.placement.table.update image Descriptor.fetch).get image).skipsLoading =
      layout.isDramAddress place.address
    rw [ImageTable.get_update, if_pos rfl, Descriptor.skipsLoading_fetch, hLost]
  · show ((s.placement.table.update image Descriptor.fetch).get other).attributes = _
    rw [ImageTable.get_update, if_neg fun hSame => hOther hSame.symm]
  · show ((s.placement.table.update image Descriptor.fetch).get .nonSecureFirmware).entry.pc = _
    rw [ImageTable.get_update]
    split
    · exact hResumes
    · exact hResumes

theorem succeeds_applyEntry {image : ImageId} {place : ImagePlace}
    (hImage : image ∈ describedImages) (hConfig : s.placement.config = config)
    (hSkipped : (s.placement.table.get image).skipsLoading = true) :
    Succeeds config s (applyEntry image place true) fun t _ s' =>
      Entered config.layout image (some place) s.placement s'.placement ∧
        ∀ e ∈ t, e.request = .dramSize := by
  refine succeeds_config_bind hConfig ((succeeds_setRegion _ _).bind ?_)
  rintro _ _ s₁ ⟨rfl, hRegion⟩
  by_cases hHeld : config.layout.isDramAddress place.address = true
  · rw [if_neg (not_not_intro ⟨rfl, hHeld⟩)]
    refine (succeeds_note _ _).bind ?_
    rintro _ _ s₂ ⟨rfl, hNote⟩
    have hPlaced := hRegion.trans hNote
    refine (succeeds_applyRole hImage (hPlaced.config.trans hConfig)).mono ?_
    rintro t _ s' ⟨hRole, hAsks⟩
    exact ⟨(hPlaced.trans hRole).entered hSkipped hHeld, hAsks⟩
  · rw [if_pos fun h => hHeld h.2]
    refine (succeeds_fetch (eq_false_of_ne_true hHeld)).bind ?_
    rintro _ _ s₂ ⟨rfl, hFetched⟩
    refine (succeeds_note _ _).bind ?_
    rintro _ _ s₃ ⟨rfl, hNote⟩
    have hPlaced := (hRegion.trans_entered hFetched).trans_kept hNote
    refine (succeeds_applyRole hImage (hPlaced.config.trans hConfig)).mono ?_
    rintro t _ s' ⟨hRole, hAsks⟩
    exact ⟨hPlaced.trans_kept hRole, hAsks⟩

/-! ## The walk over the firmware configuration -/

/-- What was found for each of the images has been carried out. -/
structure Walked (layout : Layout) (images : List ImageId) (t : List Exchange)
    (p q : Placement) : Prop where
  config : q.config = p.config
  asked : ∀ image ∈ images, ∃ found, ⟨.imagePlace image, found⟩ ∈ t
  skips : ∀ image ∈ images, ∀ found, ⟨.imagePlace image, found⟩ ∈ t →
    (q.table.get image).skipsLoading = layout.skipsAfterStandby found
  others : ∀ image, image ∉ images →
    (q.table.get image).attributes = (p.table.get image).attributes
  firmware : p.table.nonSecureFirmware.entry.pc = resumeEntry →
    q.table.nonSecureFirmware.entry.pc = resumeEntry
  asks : ∀ e ∈ t, e.request = .dramSize ∨ ∃ image ∈ images, e.request = .imagePlace image

theorem Walked.nil (layout : Layout) (p : Placement) : Walked layout [] [] p p where
  config := rfl
  asked := nofun
  skips := nofun
  others _ _ := rfl
  firmware h := h
  asks _ he := absurd he List.not_mem_nil

/-- The image in front is asked about once, and not touched by the rest of the walk. -/
theorem Walked.cons {layout : Layout} {image : ImageId} {images : List ImageId}
    {found : Option ImagePlace} {t t' : List Exchange} {p q r : Placement}
    (hEntered : Entered layout image found p q) (hAsks : ∀ e ∈ t, e.request = .dramSize)
    (hRest : Walked layout images t' q r) (hNew : image ∉ images) :
    Walked layout (image :: images) (⟨.imagePlace image, found⟩ :: (t ++ t')) p r where
  config := hRest.config.trans hEntered.config
  asked i hi := by
    rcases List.mem_cons.1 hi with rfl | hi
    · exact ⟨found, List.mem_cons_self⟩
    · obtain ⟨found', hMem⟩ := hRest.asked i hi
      exact ⟨found', List.mem_cons_of_mem _ (List.mem_append_right _ hMem)⟩
  skips i hi found' hMem := by
    have hWhere : i = image ∧ found' ≍ found ∨ ⟨.imagePlace i, found'⟩ ∈ t' := by
      rcases List.mem_cons.1 hMem with hEq | hMem
      · cases hEq
        exact .inl ⟨rfl, .rfl⟩
      · rcases List.mem_append.1 hMem with hMem | hMem
        · cases hAsks _ hMem
        · exact .inr hMem
    rcases hWhere with ⟨rfl, hSame⟩ | hMem
    · cases hSame
      rw [← hEntered.skips]
      unfold Descriptor.skipsLoading
      rw [hRest.others i hNew]
    · rcases hRest.asks _ hMem with hSize | ⟨i', hi', hEq⟩
      · cases hSize
      · cases hEq
        exact hRest.skips i hi' found' hMem
  others i hi := by
    obtain ⟨hHead, hTail⟩ := not_or.1 (fun h => hi (List.mem_cons.2 h))
    exact (hRest.others i hTail).trans (hEntered.others i hHead)
  firmware hResumes := hRest.firmware (hEntered.firmware hResumes)
  asks e he := by
    rcases List.mem_cons.1 he with rfl | he
    · exact .inr ⟨image, List.mem_cons_self, rfl⟩
    · rcases List.mem_append.1 he with he | he
      · exact .inl (hAsks e he)
      · exact (hRest.asks e he).imp_right fun ⟨i, hi, hEq⟩ =>
          ⟨i, List.mem_cons_of_mem image hi, hEq⟩

theorem succeeds_applyEntries {images : List ImageId} (hNodup : images.Nodup)
    (hImages : images ⊆ describedImages) (hConfig : s.placement.config = config)
    (hSkipped : ∀ image ∈ images, (s.placement.table.get image).skipsLoading = true) :
    Succeeds config s (applyEntries true images) fun t _ s' =>
      Walked config.layout images t s.placement s'.placement := by
  induction images generalizing s with
  | nil => exact succeeds_pure (.nil config.layout s.placement)
  | cons image images ih =>
    obtain ⟨hNew, hNodup⟩ := List.nodup_cons.1 hNodup
    have hFirst := hSkipped image List.mem_cons_self
    refine succeeds_ask_bind fun found _ => ?_
    -- What is left of the walk starts where this image was carried out.
    have hRest : ∀ s₁ : Session, Entered config.layout image found s.placement s₁.placement →
        Succeeds config s₁ (applyEntries true images) fun t _ s' =>
          Walked config.layout images t s₁.placement s'.placement := by
      intro s₁ hEntered
      refine ih hNodup (fun i hi => hImages (List.mem_cons_of_mem image hi))
        (hEntered.config.trans hConfig) fun i hi => ?_
      unfold Descriptor.skipsLoading
      rw [hEntered.others i fun hSame => hNew (hSame ▸ hi)]
      exact hSkipped i (List.mem_cons_of_mem image hi)
    cases found with
    | none =>
      have hEntered : Entered config.layout image none s.placement s.placement :=
        (Kept.refl s.placement).entered hFirst rfl
      refine (hRest s hEntered).mono fun t _ s' hWalked => ?_
      exact .cons hEntered (t := []) (fun _ he => absurd he List.not_mem_nil) hWalked hNew
    | some place =>
      refine (succeeds_applyEntry (hImages List.mem_cons_self) hConfig hFirst).bind ?_
      rintro t _ s₁ ⟨hEntered, hAsks⟩
      exact (hRest s₁ hEntered).mono fun t' _ s' hWalked => .cons hEntered hAsks hWalked hNew

/-! ## The three loads -/

/-- Questions that reading the firmware configuration asks. -/
inductive ConfigQuery : Request → Prop
  | populate (window : Region) : ConfigQuery (.populateFirmwareConfig window)
  | restored : ConfigQuery .isDramRestored
  | place (image : ImageId) : ConfigQuery (.imagePlace image)
  | dramSize : ConfigQuery .dramSize

/-- The firmware configuration has been carried out on a fresh table. -/
structure Configured (config : Config) (t : List Exchange) (p : Placement) : Prop where
  sameConfig : p.config = config
  asked : ∀ image ∈ describedImages, ∃ found, ⟨.imagePlace image, found⟩ ∈ t
  skips : ∀ image ∈ describedImages, ∀ found, ⟨.imagePlace image, found⟩ ∈ t →
    (p.table.get image).skipsLoading = config.layout.skipsAfterStandby found
  parts : ∀ image, image ∉ describedImages → (p.table.get image).skipsLoading = true
  firmware : p.table.nonSecureFirmware.entry.pc = resumeEntry
  asks : ∀ e ∈ t, ConfigQuery e.request

theorem skipsLoading_fresh (config : Config) (image : ImageId) :
    ((fresh config).table.get image).skipsLoading = true := by
  show (ImageTable.unresolved.get image).skipsLoading = true
  rw [ImageTable.get_unresolved]
  show (Flags.ofList [LoadAttribute.skipLoading]).has .skipLoading = true
  decide

theorem succeeds_placeFirmwareConfig (config : Config) (log : Log.Ring) :
    Succeeds config ⟨.fresh config, log⟩ placeFirmwareConfig fun t _ s' =>
      Configured config t s'.placement := by
  refine succeeds_config_bind rfl (succeeds_ask_bind fun reply hReply => ?_)
  cases reply with
  | error fault => exact absurd (List.mem_singleton_self _) (hReply.populated _ fault)
  | ok _ =>
    refine (succeeds_setRegion _ _).bind ?_
    rintro _ _ s₁ ⟨rfl, hOwn⟩
    refine succeeds_ask_bind fun restored hRestored => ?_
    obtain rfl : restored = true := hRestored.restored restored (List.mem_singleton_self _)
    have hSkipped : ∀ image, (s₁.placement.table.get image).skipsLoading = true := by
      intro image
      unfold Descriptor.skipsLoading
      rw [hOwn.attributes]
      exact skipsLoading_fresh config image
    refine (succeeds_applyEntries (by decide) (List.Subset.refl describedImages) hOwn.config
      fun image _ => hSkipped image).mono ?_
    intro t _ s' hWalked
    refine ⟨hWalked.config.trans hOwn.config, fun image hImage => ?_,
      fun image hImage found hMem => ?_, fun image hOther => ?_,
      hWalked.firmware (hOwn.firmware rfl), fun e he => ?_⟩
    · obtain ⟨found, hMem⟩ := hWalked.asked image hImage
      exact ⟨found, List.mem_cons_of_mem _ (List.mem_cons_of_mem _ hMem)⟩
    · refine hWalked.skips image hImage found ?_
      simpa using hMem
    · unfold Descriptor.skipsLoading
      rw [hWalked.others image hOther]
      exact hSkipped image
    · rcases List.mem_cons.1 he with rfl | he
      · exact .populate _
      · rcases List.mem_cons.1 he with rfl | he
        · exact .restored
        · rcases hWalked.asks e he with hSize | ⟨image, -, hPlace⟩
          · exact hSize ▸ .dramSize
          · exact hPlace ▸ .place image

/-- What is asked to bring a resident TEE back in at `pc`. -/
def resumeCalls (layout : Layout) (base pc : UInt64) (found : Option (List UInt8)) :
    List Exchange :=
  [⟨.imageBytes base Tee.headerCapacity, found⟩, ⟨.isDramRestored, true⟩, ⟨.savedTeeEntry, pc⟩] ++
    if layout.backupMemory.contains pc then [⟨.enableClock .backupMemory, ()⟩] else []

theorem mem_resumeCalls_iff {layout : Layout} {base pc : UInt64} {found : Option (List UInt8)}
    {e : Exchange} : e ∈ resumeCalls layout base pc found ↔
      e = ⟨.imageBytes base Tee.headerCapacity, found⟩ ∨ e = ⟨.isDramRestored, true⟩ ∨
        e = ⟨.savedTeeEntry, pc⟩ ∨
          layout.backupMemory.contains pc = true ∧ e = ⟨.enableClock .backupMemory, ()⟩ := by
  unfold resumeCalls
  cases hBackup : layout.backupMemory.contains pc <;> simp

/-- A TEE with the signature is entered where it was left, whatever else its header says. -/
theorem succeeds_placeTee (hConfig : s.placement.config = config) :
    Succeeds config s placeTee fun t _ s' => ∃ pc found,
      t = resumeCalls config.layout s.placement.table.tee.region.base pc found ∧
        s'.placement.config = config ∧
          s'.placement.table = s.placement.table.update .tee fun d =>
            { d with entry := { d.entry with pc } } := by
  refine succeeds_table_bind (succeeds_modify_bind (succeeds_ask_bind fun found hFound => ?_))
  obtain ⟨bytes, rfl, hSigned⟩ := hFound.signed _ _ found (List.mem_singleton_self _)
  dsimp only [Option.getD_some]
  rw [if_pos hSigned]
  refine succeeds_ask_bind fun restored hRestored => ?_
  obtain rfl : restored = true := hRestored.restored restored (List.mem_singleton_self _)
  rw [if_pos rfl]
  refine succeeds_ask_bind fun pc _ => succeeds_modify_bind (succeeds_config_bind hConfig ?_)
  by_cases hBackup : config.layout.backupMemory.contains pc = true
  · rw [if_pos hBackup]
    refine succeeds_ask fun reply => ⟨pc, some bytes, ?_, hConfig, rfl⟩
    unfold resumeCalls
    rw [if_pos hBackup]
    rfl
  · rw [if_neg hBackup]
    refine succeeds_pure ⟨pc, some bytes, ?_, hConfig, rfl⟩
    unfold resumeCalls
    rw [if_neg hBackup]
    rfl

/-- The TEE is told where the non-secure firmware is entered. -/
theorem succeeds_handOffNonSecure :
    Succeeds config s handOffNonSecure fun t _ s' =>
      (∃ base size, t = [⟨.flushCache base size, ()⟩]) ∧
        s'.placement.config = s.placement.config ∧
          s'.placement.table = s.placement.table.update .tee fun d =>
            { d with entry :=
              { d.entry with returnAddress := s.placement.table.nonSecureFirmware.entry.pc } } := by
  refine succeeds_table_bind (succeeds_modify_bind (succeeds_ask fun reply => ?_))
  exact ⟨⟨_, _, rfl⟩, rfl, rfl⟩

/-- A load that succeeds on any log is the first, and the rest goes on from what it left. -/
theorem LoadsInTurn.load {p q : Placement} {image : ImageId} {images : List ImageId}
    {t : List Exchange} {results : List (Except Error Unit)}
    {Q : Log.Ring → List Exchange → Unit → Session → Prop}
    (h : LoadsInTurn p (image :: images) t results q) (hResuming : Resuming config t)
    (hLoad : ∀ log, Succeeds config ⟨p, log⟩ (afterLoad image) (Q log)) :
    ∃ log t₁ t₂ results' s, t = t₁ ++ t₂ ∧ results = .ok () :: results' ∧ Q log t₁ () s ∧
      LoadsInTurn s.placement images t₂ results' q ∧ Resuming config t₂ := by
  cases h with
  | @cons _ _ _ _ log t₁ t₂ result results' s hRuns hRest =>
    obtain ⟨_, rfl, hHolds⟩ := hLoad log t₁ result s hRuns
      (hResuming.mono (List.subset_append_left t₁ t₂))
    exact ⟨log, t₁, t₂, results', s, rfl, rfl, hHolds, hRest,
      hResuming.mono (List.subset_append_right t₁ t₂)⟩

/-- How the table stands when the firmware configuration, the TEE and the non-secure firmware have
been brought in on a board that resumes. -/
structure Resumed (config : Config) (t : List Exchange) (p : Placement) : Prop where
  /-- Each image that the firmware configuration may describe is asked about. -/
  asked : ∀ image ∈ describedImages, ∃ found, ⟨.imagePlace image, found⟩ ∈ t
  /-- A described image is skipped exactly if its address is one of DRAM. -/
  skips : ∀ image ∈ describedImages, ∀ found, ⟨.imagePlace image, found⟩ ∈ t →
    (p.table.get image).skipsLoading = config.layout.skipsAfterStandby found
  pager : p.table.teePager.skipsLoading = true
  paged : p.table.teePaged.skipsLoading = true
  firmware : p.table.nonSecureFirmware.entry.pc = resumeEntry
  returns : p.table.tee.entry.returnAddress = resumeEntry
  /-- The TEE is entered where it was left, with the clock of the always-on memory if it was left
  there. -/
  resumes : ∃ pc, (⟨.savedTeeEntry, pc⟩ : Exchange) ∈ t
  entry : ∀ pc, (⟨.savedTeeEntry, pc⟩ : Exchange) ∈ t → p.table.tee.entry.pc = pc ∧
    ((∃ e ∈ t, e.request = .enableClock .backupMemory) ↔
      config.layout.backupMemory.contains pc = true)
  /-- Only the TEE image is looked at. -/
  reads : ∀ e ∈ t, ∀ base length, e.request = .imageBytes base length →
    base = p.table.tee.region.base
  keepsNothing : ∀ e ∈ t, e.request ≠ .saveStageParameters

/-- What the three loads exchange: the firmware configuration `t₁`, and then a TEE that lies at `base`
and resumes at `pc`, and the non-secure firmware. -/
structure ThreeLoads (layout : Layout) (base pc : UInt64) (t₁ t : List Exchange) : Prop where
  asks : ∀ e ∈ t₁, ConfigQuery e.request
  parts : ∃ found flushed size, ∀ e, e ∈ t ↔
    e ∈ t₁ ∨ e ∈ resumeCalls layout base pc found ∨ e = ⟨.flushCache flushed size, ()⟩

namespace ThreeLoads

variable {layout : Layout} {base pc : UInt64} {t₁ t : List Exchange} {e : Exchange}

/-- What neither the firmware configuration nor the non-secure firmware asks is asked by the TEE. -/
theorem of_tee (h : ThreeLoads layout base pc t₁ t) (he : e ∈ t) (hNotConfig : ¬ ConfigQuery e.request)
    (hNotFlush : ∀ flushed size, e.request ≠ .flushCache flushed size) :
    ∃ found, e ∈ resumeCalls layout base pc found := by
  obtain ⟨found, flushed, size, hAll⟩ := h.parts
  rcases (hAll e).1 he with he | he | rfl
  · exact absurd (h.asks e he) hNotConfig
  · exact ⟨found, he⟩
  · exact absurd rfl (hNotFlush flushed size)

/-- Only the firmware configuration is asked for the places of images. -/
theorem of_config (h : ThreeLoads layout base pc t₁ t) {image : ImageId} {place : Option ImagePlace}
    (hMem : ⟨.imagePlace image, place⟩ ∈ t) : (⟨.imagePlace image, place⟩ : Exchange) ∈ t₁ := by
  obtain ⟨found, flushed, size, hAll⟩ := h.parts
  rcases (hAll _).1 hMem with hMem | hMem | hEq
  · exact hMem
  · rw [mem_resumeCalls_iff] at hMem
    rcases hMem with hEq | hEq | hEq | ⟨-, hEq⟩ <;> cases hEq
  · cases hEq

theorem mem_savedTeeEntry_iff (h : ThreeLoads layout base pc t₁ t) {pc' : UInt64} :
    (⟨.savedTeeEntry, pc'⟩ : Exchange) ∈ t ↔ pc' = pc := by
  constructor
  · intro hMem
    obtain ⟨found, hTee⟩ := h.of_tee hMem nofun nofun
    rw [mem_resumeCalls_iff] at hTee
    rcases hTee with hEq | hEq | hEq | ⟨-, hEq⟩ <;> cases hEq
    rfl
  · rintro rfl
    obtain ⟨found, flushed, size, hAll⟩ := h.parts
    refine (hAll _).2 (.inr (.inl ?_))
    rw [mem_resumeCalls_iff]
    exact .inr (.inr (.inl rfl))

/-- The clock of the always-on memory is enabled exactly if the TEE was left there. -/
theorem clock_iff (h : ThreeLoads layout base pc t₁ t) :
    (∃ e ∈ t, e.request = .enableClock .backupMemory) ↔
      layout.backupMemory.contains pc = true := by
  constructor
  · rintro ⟨e, he, hRequest⟩
    obtain ⟨found, hTee⟩ :=
      h.of_tee he (by rw [hRequest]; exact nofun) (by rw [hRequest]; exact nofun)
    rw [mem_resumeCalls_iff] at hTee
    rcases hTee with rfl | rfl | rfl | ⟨hBackup, -⟩
    · cases hRequest
    · cases hRequest
    · cases hRequest
    · exact hBackup
  · intro hBackup
    obtain ⟨found, flushed, size, hAll⟩ := h.parts
    refine ⟨⟨.enableClock .backupMemory, ()⟩, (hAll _).2 (.inr (.inl ?_)), rfl⟩
    rw [mem_resumeCalls_iff]
    exact .inr (.inr (.inr ⟨hBackup, rfl⟩))

/-- Only the image of the TEE is read. -/
theorem base_of_imageBytes (h : ThreeLoads layout base pc t₁ t) (he : e ∈ t) {base' : UInt64}
    {length : Nat} (hRequest : e.request = .imageBytes base' length) : base' = base := by
  obtain ⟨found, hTee⟩ :=
    h.of_tee he (by rw [hRequest]; exact nofun) (by rw [hRequest]; exact nofun)
  rw [mem_resumeCalls_iff] at hTee
  rcases hTee with rfl | rfl | rfl | ⟨-, rfl⟩ <;> cases hRequest
  rfl

theorem not_saveStageParameters (h : ThreeLoads layout base pc t₁ t) (he : e ∈ t) :
    e.request ≠ .saveStageParameters := by
  intro hRequest
  obtain ⟨found, hTee⟩ :=
    h.of_tee he (by rw [hRequest]; exact nofun) (by rw [hRequest]; exact nofun)
  rw [mem_resumeCalls_iff] at hTee
  rcases hTee with rfl | rfl | rfl | ⟨-, rfl⟩ <;> cases hRequest

end ThreeLoads

/-- The table that the TEE and the non-secure firmware leave, in whichever order they come. -/
def resumedTable (table : ImageTable) (pc : UInt64) : ImageTable :=
  table.update .tee fun d =>
    { d with entry := { d.entry with pc, returnAddress := table.nonSecureFirmware.entry.pc } }

theorem skipsLoading_resumedTable (table : ImageTable) (pc : UInt64) (image : ImageId) :
    ((resumedTable table pc).get image).skipsLoading = (table.get image).skipsLoading := by
  cases image <;> rfl

theorem Configured.resumed {t t₁ : List Exchange} {p q : Placement} {pc : UInt64}
    (h : Configured config t₁ p) (hTable : q.table = resumedTable p.table pc)
    (hThree : ThreeLoads config.layout p.table.tee.region.base pc t₁ t) : Resumed config t q where
  asked image hImage := by
    obtain ⟨place, hMem⟩ := h.asked image hImage
    obtain ⟨_, _, _, hAll⟩ := hThree.parts
    exact ⟨place, (hAll _).2 (.inl hMem)⟩
  skips image hImage place hMem := by
    rw [hTable, skipsLoading_resumedTable]
    exact h.skips image hImage place (hThree.of_config hMem)
  pager := by
    rw [hTable]
    exact h.parts .teePager (by decide)
  paged := by
    rw [hTable]
    exact h.parts .teePaged (by decide)
  firmware := by
    rw [hTable]
    exact h.firmware
  returns := by
    rw [hTable]
    exact h.firmware
  resumes := ⟨pc, hThree.mem_savedTeeEntry_iff.2 rfl⟩
  entry pc' hMem := by
    rw [hThree.mem_savedTeeEntry_iff.1 hMem, hTable]
    exact ⟨rfl, hThree.clock_iff⟩
  reads e he base length hRequest := by
    rw [hTable]
    exact hThree.base_of_imageBytes he hRequest
  keepsNothing e he := hThree.not_saveStageParameters he

/-- On a board that resumes, bringing in the firmware configuration and then the TEE and the
non-secure firmware, in either order, succeeds and leaves the table `Resumed`: nothing that DRAM
still holds is fetched again, the TEE goes on where it left off and is told that the non-secure
firmware resumes, and the parameters of this stage are not kept once more. -/
theorem loads_resume_after_standby {config : Config} {order : List ImageId} {t : List Exchange}
    {results : List (Except Error Unit)} {p : Placement}
    (hOrder : order = [.tee, .nonSecureFirmware] ∨ order = [.nonSecureFirmware, .tee])
    (h : LoadsInTurn (.fresh config) (.firmwareConfig :: order) t results p)
    (hResuming : Resuming config t) :
    results = [.ok (), .ok (), .ok ()] ∧ Resumed config t p := by
  obtain ⟨_, t₁, _, _, s₁, rfl, rfl, hConfigured, hRest, hLater⟩ :=
    h.load hResuming (succeeds_placeFirmwareConfig config)
  have hConfig := hConfigured.sameConfig
  rcases hOrder with rfl | rfl
  · obtain ⟨_, t₂, _, _, s₂, rfl, rfl, ⟨pc, found, hCalls, -, hTee⟩, hRest, hLater⟩ :=
      hRest.load hLater fun _ => succeeds_placeTee hConfig
    obtain ⟨_, t₃, _, _, s₃, rfl, rfl, ⟨⟨base, size, hFlush⟩, -, hFirmware⟩, hRest, -⟩ :=
      hRest.load hLater fun _ => succeeds_handOffNonSecure
    obtain ⟨rfl, rfl, rfl⟩ := hRest.eq_of_nil
    have hTable : s₃.placement.table = resumedTable s₁.placement.table pc := by
      rw [hFirmware]
      dsimp only
      rw [hTee]
      rfl
    refine ⟨rfl, hConfigured.resumed hTable ⟨hConfigured.asks, found, base, size, fun e => ?_⟩⟩
    rw [hCalls, hFlush, List.append_nil, List.mem_append, List.mem_append, List.mem_singleton]
  · obtain ⟨_, t₂, _, _, s₂, rfl, rfl, ⟨⟨base, size, hFlush⟩, hSame, hFirmware⟩, hRest, hLater⟩ :=
      hRest.load hLater fun _ => succeeds_handOffNonSecure
    obtain ⟨_, t₃, _, _, s₃, rfl, rfl, ⟨pc, found, hCalls, -, hTee⟩, hRest, -⟩ :=
      hRest.load hLater fun _ => succeeds_placeTee (hSame.trans hConfig)
    obtain ⟨rfl, rfl, rfl⟩ := hRest.eq_of_nil
    dsimp only at hCalls hTee
    rw [hFirmware] at hCalls hTee
    refine ⟨rfl, hConfigured.resumed hTee ⟨hConfigured.asks, found, base, size, fun e => ?_⟩⟩
    rw [hCalls, hFlush, List.append_nil, List.mem_append, List.mem_append, List.mem_singleton,
      or_comm (b := e ∈ _)]
    rfl

/-- On the board that woke from standby, the non-secure firmware is left in DRAM, the hardware
description above DRAM is fetched, and the TEE resumes in the always-on memory, which is clocked. -/
theorem standbyBoard_resumes : ∃ t p,
    LoadsInTurn (.fresh .standard) [.firmwareConfig, .tee, .nonSecureFirmware] t
      [.ok (), .ok (), .ok ()] p ∧
    p.table.nonSecureFirmware.skipsLoading = true ∧ p.table.hardwareConfig.skipsLoading = false ∧
    p.table.tee.entry.pc = 0x54000010 ∧ ∃ e ∈ t, e.request = .enableClock .backupMemory := by
  obtain ⟨t, results, p, hLoads, hReplies⟩ := exists_loadsInTurn standbyBoard ()
    [.firmwareConfig, .tee, .nonSecureFirmware] (.fresh .standard)
  have hResuming : Resuming .standard t := by
    refine ⟨fun window fault hMem => ?_, fun restored hMem => ?_, fun size hMem => ?_,
      fun base length found hMem => ?_⟩
    · obtain ⟨_, hReply⟩ := hReplies _ hMem
      cases hReply
    · obtain ⟨_, hReply⟩ := hReplies _ hMem
      exact hReply
    · obtain ⟨_, hReply⟩ := hReplies _ hMem
      obtain rfl : size = 0x20000000 := hReply
      decide
    · obtain ⟨_, hReply⟩ := hReplies _ hMem
      exact ⟨_, hReply, by decide⟩
  obtain ⟨rfl, hResumed⟩ := loads_resume_after_standby (.inl rfl) hLoads hResuming
  have hSkips : ∀ image ∈ describedImages, (p.table.get image).skipsLoading =
      Layout.stm32mp15.skipsAfterStandby (standbyBoard.respond () (.imagePlace image)).1 := by
    intro image hImage
    obtain ⟨found, hMem⟩ := hResumed.asked image hImage
    obtain ⟨_, hReply⟩ := hReplies _ hMem
    obtain rfl : found = (standbyBoard.respond () (.imagePlace image)).1 := hReply
    exact hResumed.skips image hImage _ hMem
  obtain ⟨pc, hMem⟩ := hResumed.resumes
  obtain ⟨_, hReply⟩ := hReplies _ hMem
  obtain rfl : pc = 0x54000010 := hReply
  obtain ⟨hEntry, hClock⟩ := hResumed.entry _ hMem
  exact ⟨t, p, hLoads, (hSkips .nonSecureFirmware (by decide)).trans (by decide),
    (hSkips .hardwareConfig (by decide)).trans (by decide), hEntry, hClock.2 (by decide)⟩

end Placement

end BootStage
