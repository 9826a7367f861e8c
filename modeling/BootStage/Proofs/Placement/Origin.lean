import BootStage.Placement.Load
import BootStage.Proofs.Ensures
import BootStage.Proofs.Region

/-!
# Where the regions in the image table come from

A region of the table is unresolved, is the window of the firmware configuration itself, is a part
of a container that was checked against the reserved regions, or was offered by the board: in an
entry of the firmware configuration, as the top of DRAM, or as such a region grown by the size of
another (`Origin`).  A placement is `Traced` if that holds of its whole table, and `Keeps` is the
rule book for the actions that leave it so.
-/

namespace BootStage

/-- Regions that the board's answers in `t` give an image, checked against nothing. -/
inductive Offered (config : Config) (t : List Exchange) : ImageId → Region → Prop
  | entry {image : ImageId} {place : ImagePlace} :
      ⟨.imagePlace image, some place⟩ ∈ t →
      Offered config t image (.window place.address place.maxSize)
  | pagerEntry {place : ImagePlace} : ⟨.imagePlace .tee, some place⟩ ∈ t →
      Offered config t .teePager (.window place.address place.maxSize)
  | dramTop {size : UInt64} {window : Region} : ⟨.dramSize, size⟩ ∈ t →
      config.layout.dramTopWindow? size = some window → Offered config t .teePaged window
  | grown {region extra : Region} : config.teeWindows = .fixed → Offered config t .tee region →
      Offered config t .teeConfig extra →
      Offered config t .tee { region with size := region.size + extra.size }

/-- Where the region of an image comes from. -/
inductive Origin (config : Config) (t : List Exchange) : ImageId → Region → Prop
  | unresolved (image : ImageId) : Origin config t image (.window 0 0)
  | own : Origin config t .firmwareConfig config.layout.firmwareConfig
  | pagerPart {region : Region} : (∀ r ∈ config.reservedRegions, region.Apart r) →
      Origin config t .teePager region
  | pagedPart {region : Region} : (∀ r ∈ config.reservedRegions, region.Apart r) →
      Origin config t .teePaged region
  | offered {image : ImageId} {region : Region} : image ≠ .firmwareConfig →
      Offered config t image region → Origin config t image region

variable {config : Config} {t t' : List Exchange} {image : ImageId} {region : Region}

theorem Offered.mono (h : Offered config t image region) (hSub : t ⊆ t') :
    Offered config t' image region := by
  induction h with
  | entry hEntry => exact .entry (hSub hEntry)
  | pagerEntry hEntry => exact .pagerEntry (hSub hEntry)
  | dramTop hSize hTop => exact .dramTop (hSub hSize) hTop
  | grown hFixed _ _ ihRegion ihExtra => exact .grown hFixed ihRegion ihExtra

theorem Origin.mono (h : Origin config t image region) (hSub : t ⊆ t') :
    Origin config t' image region := by
  cases h with
  | unresolved _ => exact .unresolved image
  | own => exact .own
  | pagerPart hClear => exact .pagerPart hClear
  | pagedPart hClear => exact .pagedPart hClear
  | offered hOther hOffered => exact .offered hOther (hOffered.mono hSub)

namespace Placement

/-- Every region of the table has an origin in what was exchanged, and the firmware configuration
itself is not fetched. -/
structure Traced (config : Config) (t : List Exchange) (p : Placement) : Prop where
  sameConfig : p.config = config
  origin : ∀ image, Origin config t image (p.table.get image).region
  skips : (p.table.get .firmwareConfig).skipsLoading = true

theorem Traced.mono {p : Placement} (h : Traced config t p) (hSub : t ⊆ t') :
    Traced config t' p :=
  ⟨h.sameConfig, fun image => (h.origin image).mono hSub, h.skips⟩

theorem traced_fresh (config : Config) : Traced config [] (.fresh config) where
  sameConfig := rfl
  origin image := by
    show Origin config [] image (ImageTable.unresolved.get image).region
    rw [ImageTable.get_unresolved]
    exact .unresolved image
  skips := by
    show (ImageTable.unresolved.get .firmwareConfig).skipsLoading = true
    decide

/-- A descriptor is rewritten to a region with an origin. -/
theorem Traced.update {p : Placement} {f : Descriptor → Descriptor} (h : Traced config t p)
    (hRegion : Origin config t image (f (p.table.get image)).region)
    (hSkips : image = .firmwareConfig → ∀ d, (f d).attributes = d.attributes) :
    Traced config t { p with table := p.table.update image f } where
  sameConfig := h.sameConfig
  origin image' := by
    show Origin config t image' ((p.table.update image f).get image').region
    rw [ImageTable.get_update]
    split
    · next hSame => exact hSame ▸ hRegion
    · exact h.origin image'
  skips := by
    show ((p.table.update image f).get .firmwareConfig).skipsLoading = true
    rw [ImageTable.get_update]
    split
    · next hSame =>
      subst hSame
      have hSkipped := h.skips
      unfold Descriptor.skipsLoading at hSkipped ⊢
      rw [hSkips rfl]
      exact hSkipped
    · exact h.skips

/-! ## Actions that keep a placement traced -/

/-- With what was seen, the action leaves a traced placement. -/
def KeepsAt (config : Config) (seen : List Exchange) (s : Session) {α : Type} (a : Placing α) :
    Prop :=
  Ensures a s fun t _ s' => Traced config (seen ++ t) s'.placement

/-- Wherever the exchanges of `known` were seen and the placement is traced, it is traced after the
action too. -/
def Keeps (config : Config) (known : List Exchange) {α : Type} (a : Placing α) : Prop :=
  ∀ seen s, known ⊆ seen → Traced config seen s.placement → KeepsAt config seen s a

variable {α β : Type} {known : List Exchange}

theorem Keeps.mono {known' : List Exchange} {a : Placing α} (h : Keeps config known a)
    (hSub : known ⊆ known') : Keeps config known' a := fun seen s hKnown =>
  h seen s (List.Subset.trans hSub hKnown)

theorem keeps_pure (v : α) : Keeps config known (pure v : Placing α) := fun seen s _ h =>
  ensures_pure.2 (by rwa [List.append_nil])

theorem keeps_throw (e : Error) : Keeps config known (throw e : Placing α) := fun seen s _ h =>
  ensures_throw.2 (by rwa [List.append_nil])

theorem KeepsAt.bind {seen : List Exchange} {s : Session} {a : Placing α} {f : α → Placing β}
    (ha : KeepsAt config seen s a) (hf : ∀ v, Keeps config seen (f v)) :
    KeepsAt config seen s (a >>= f) := by
  refine ensures_bind.2 (ha.mono fun t x s' hFirst => ?_)
  cases x with
  | error e => exact hFirst
  | ok v =>
    refine (hf v (seen ++ t) s' (List.subset_append_left seen t) hFirst).mono ?_
    intro t' y s'' hRest
    rwa [List.append_assoc] at hRest

theorem keeps_bind {a : Placing α} {f : α → Placing β} (ha : Keeps config known a)
    (hf : ∀ v, Keeps config known (f v)) : Keeps config known (a >>= f) :=
  fun seen s hKnown hTraced => (ha seen s hKnown hTraced).bind fun v => (hf v).mono hKnown

/-- After a request its exchange is known. -/
theorem keeps_ask_bind {q : Request} {f : q.Reply → Placing β}
    (hf : ∀ reply, Keeps config (⟨q, reply⟩ :: known) (f reply)) :
    Keeps config known ((liftM (Program.ask q) : Placing q.Reply) >>= f) := by
  intro seen s hKnown hTraced
  refine ensures_lift_bind.2 fun t reply hRuns => ?_
  obtain rfl := runs_ask_iff.1 hRuns
  have hNow : (⟨q, reply⟩ : Exchange) :: known ⊆ seen ++ [⟨q, reply⟩] := by
    intro e he
    rcases List.mem_cons.1 he with rfl | he
    · exact List.mem_append_right _ (List.mem_singleton_self _)
    · exact List.mem_append_left _ (hKnown he)
  have hSeen := hTraced.mono (List.subset_append_left seen [⟨q, reply⟩])
  refine (hf reply _ s hNow hSeen).mono fun t' y s' hRest => ?_
  rwa [List.append_assoc] at hRest

theorem keeps_ask (q : Request) :
    Keeps config known (liftM (Program.ask q) : Placing q.Reply) := by
  have h : Keeps config known ((liftM (Program.ask q) : Placing q.Reply) >>= pure) :=
    keeps_ask_bind fun reply => keeps_pure reply
  rwa [bind_pure] at h

/-- What does not change the placement. -/
theorem keeps_modify {f : Session → Session} (hf : ∀ s, (f s).placement.table = s.placement.table)
    (hConfig : ∀ s, (f s).placement.config = s.placement.config) :
    Keeps config known (modify f : Placing Unit) := fun seen s _ h =>
  ensures_modify.2 (by
    rw [List.append_nil]
    exact ⟨(hConfig s).trans h.sameConfig, fun image => by rw [hf]; exact h.origin image,
      by rw [hf]; exact h.skips⟩)

theorem keeps_note (level : Log.Level) (pieces : List String) :
    Keeps config known (Placing.note level pieces) :=
  keeps_modify (fun _ => rfl) fun _ => rfl

/-- What was read of the placement belongs to the state that the rest starts from. -/
theorem keepsAt_config_bind {seen : List Exchange} {s : Session} {f : Config → Placing β}
    (hTraced : Traced config seen s.placement) (hf : KeepsAt config seen s (f config)) :
    KeepsAt config seen s (Placing.config >>= f) := by
  refine ensures_bind.2 (ensures_get_bind.2 (ensures_pure.2 ?_))
  rw [hTraced.sameConfig]
  exact hf

theorem keepsAt_table_bind {seen : List Exchange} {s : Session} {f : ImageTable → Placing β}
    (hf : KeepsAt config seen s (f s.placement.table)) :
    KeepsAt config seen s (Placing.table >>= f) :=
  ensures_bind.2 (ensures_get_bind.2 (ensures_pure.2 hf))

theorem keeps_config_bind {f : Config → Placing β} (hf : Keeps config known (f config)) :
    Keeps config known (Placing.config >>= f) := fun seen s hKnown hTraced =>
  keepsAt_config_bind hTraced (hf seen s hKnown hTraced)

theorem keeps_table_bind {f : ImageTable → Placing β} (hf : ∀ table, Keeps config known (f table)) :
    Keeps config known (Placing.table >>= f) := fun seen s hKnown hTraced =>
  keepsAt_table_bind (hf _ seen s hKnown hTraced)

/-- A rewritten descriptor keeps its region. -/
theorem keeps_update {f : Descriptor → Descriptor} (hRegion : ∀ d, (f d).region = d.region)
    (hSkips : image = .firmwareConfig → ∀ d, (f d).attributes = d.attributes) :
    Keeps config known (Placing.update image f) := fun seen s _ h =>
  ensures_modify.2 (by
    rw [List.append_nil]
    refine h.update ?_ hSkips
    rw [hRegion]
    exact h.origin image)

theorem keeps_enterAt (image : ImageId) (pc : UInt64) :
    Keeps config known (Placing.enterAt image pc) :=
  keeps_update (fun _ => rfl) fun _ _ => rfl

theorem keeps_setRegion (h : Origin config known image region) :
    Keeps config known (Placing.setRegion image region) := fun seen s hKnown hTraced =>
  ensures_modify.2 (by
    rw [List.append_nil]
    exact hTraced.update (h.mono hKnown) fun _ _ => rfl)

theorem keeps_dramTopWindow_bind {f : Region → Placing β}
    (hf : ∀ size window, config.layout.dramTopWindow? size = some window →
      Keeps config (⟨.dramSize, size⟩ :: known) (f window)) :
    Keeps config known (Placing.dramTopWindow >>= f) := by
  unfold Placing.dramTopWindow
  simp only [bind_assoc]
  refine keeps_config_bind (keeps_ask_bind fun size => ?_)
  cases hTop : config.layout.dramTopWindow? size with
  | some window => exact hf size window hTop
  | none => exact keeps_throw _

end Placement

end BootStage
