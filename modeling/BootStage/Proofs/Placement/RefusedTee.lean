import BootStage.Proofs.Placement.SplitTee

/-!
# TEE images that are refused

Bringing in the TEE can fail in five places: there is no room for the windows of a container, the
parser refuses the container, a monolithic image has no region, or it cannot grow.  Each of them
comes before the first descriptor is rewritten as a whole.  So a load that fails leaves the placement
as it was, except that the TEE is entered at the base of its region (`refused_tee_leaves_placement`).

    TEE image refused → same descriptors, same survived failures, nothing saved and no clock enabled
    refused as an invalid container      only with the signature, when DRAM lost its content
    refused for want of an entry point   only without the signature
-/

namespace BootStage.Placement

/-- What a load of the TEE that failed with `e` leaves of the placement, and what it has asked. -/
structure TeeRefused (p : Placement) (t : List Exchange) (e : Error) (q : Placement) : Prop where
  config : q.config = p.config
  others : ∀ image, image ≠ .tee → q.table.get image = p.table.get image
  /-- Of the TEE's own descriptor only the entry point was written. -/
  tee : q.table.tee =
    { p.table.tee with entry := { p.table.tee.entry with pc := p.table.tee.region.base } }
  degraded : q.degraded = p.degraded
  /-- The image is looked at, and nothing is asked besides but the state of DRAM and its size. -/
  read : ∃ found, ⟨.imageBytes p.table.tee.region.base Tee.headerCapacity, found⟩ ∈ t
  asks : ∀ x ∈ t, x.request = .imageBytes p.table.tee.region.base Tee.headerCapacity ∨
    x.request = .isDramRestored ∨ x.request = .dramSize
  causes : e = .teeHeaderInvalid ∨ e = .noTeeEntryPoint ∨ e = .invalidRegion
  /-- Only a container on a board whose DRAM is cold is refused for its header. -/
  signed : e = .teeHeaderInvalid →
    (∀ base length found, ⟨.imageBytes base length, found⟩ ∈ t → Tee.signature <+: found.getD []) ∧
      ⟨.isDramRestored, false⟩ ∈ t ∧ ⟨.isDramRestored, true⟩ ∉ t
  /-- Only a monolithic image is refused for want of an entry point. -/
  unsigned : e = .noTeeEntryPoint →
    ∀ base length found, ⟨.imageBytes base length, found⟩ ∈ t → ¬ Tee.signature <+: found.getD []

section ContainerPlaced

variable {s s' : Session} {bytes : List UInt8} {base : UInt64} {t : List Exchange} {e : Error}

/-- A container that is not placed leaves the placement alone. -/
theorem ContainerPlaced.placement_of_error (h : ContainerPlaced s bytes base t (.error e) s') :
    s'.placement = s.placement := by
  cases h <;> rfl

theorem ContainerPlaced.cause_of_error (h : ContainerPlaced s bytes base t (.error e) s') :
    e = .teeHeaderInvalid ∨ e = .invalidRegion := by
  cases h with
  | noWindow _ _ => exact .inr rfl
  | refused _ _ => exact .inl rfl

end ContainerPlaced

section MonolithicPlaced

variable {s s' : Session} {e : Error}

/-- A monolithic image that is not placed leaves everything alone. -/
theorem MonolithicPlaced.eq_of_error (h : MonolithicPlaced s (.error e) s') : s' = s := by
  cases h <;> rfl

theorem MonolithicPlaced.cause_of_error (h : MonolithicPlaced s (.error e) s') :
    e = .noTeeEntryPoint ∨ e = .invalidRegion := by
  cases h with
  | noRegion _ => exact .inl rfl
  | tooLarge _ _ => exact .inr rfl

end MonolithicPlaced

/-- The two ways in which the TEE is refused: as a container, when DRAM is cold, and as a monolithic
image.  In both nothing but its entry point was written. -/
inductive TeeLoad.Refusal (s : Session) (e : Error) : List Exchange → Prop
  | container {bytes : List UInt8} {t : List Exchange} : Tee.hasSignature bytes = true →
      (∀ x ∈ t, x.request = .dramSize) → e = .teeHeaderInvalid ∨ e = .invalidRegion →
      Refusal s e (coldCalls s.placement.table.tee.region.base bytes ++ t)
  | monolithic {found : Option (List UInt8)} : Tee.hasSignature (found.getD []) = false →
      e = .noTeeEntryPoint ∨ e = .invalidRegion →
      Refusal s e [⟨.imageBytes s.placement.table.tee.region.base Tee.headerCapacity, found⟩]

theorem TeeLoad.refusal {s s' : Session} {t : List Exchange} {e : Error}
    (h : TeeLoad s t (.error e) s') :
    TeeLoad.Refusal s e t ∧ s'.placement = s.enteringTee.placement := by
  cases h with
  | noContainer hSigned hPlaced =>
    exact ⟨.container hSigned hPlaced.asks hPlaced.cause_of_error, hPlaced.placement_of_error⟩
  | noMonolithic hUnsigned hPlaced =>
    exact ⟨.monolithic hUnsigned hPlaced.cause_of_error, by rw [hPlaced.eq_of_error]⟩

namespace TeeLoad.Refusal

variable {s : Session} {e : Error} {t : List Exchange}

theorem cause (h : Refusal s e t) :
    e = .teeHeaderInvalid ∨ e = .noTeeEntryPoint ∨ e = .invalidRegion := by
  cases h with
  | container _ _ hCause => exact hCause.imp_right .inr
  | monolithic _ hCause => exact .inr hCause

theorem asks (h : Refusal s e t) {x : Exchange} (hx : x ∈ t) :
    x.request = .imageBytes s.placement.table.tee.region.base Tee.headerCapacity ∨
      x.request = .isDramRestored ∨ x.request = .dramSize := by
  cases h with
  | container _ hSize _ =>
    rcases List.mem_append.1 hx with hx | hx
    · rcases mem_coldCalls_iff.1 hx with rfl | rfl
      · exact .inl rfl
      · exact .inr (.inl rfl)
    · exact .inr (.inr (hSize x hx))
  | monolithic _ _ =>
    obtain rfl := List.mem_singleton.1 hx
    exact .inl rfl

theorem read (h : Refusal s e t) : ∃ found,
    ⟨.imageBytes s.placement.table.tee.region.base Tee.headerCapacity, found⟩ ∈ t := by
  cases h with
  | container _ _ _ => exact ⟨_, List.mem_append_left _ (mem_coldCalls_iff.2 (.inl rfl))⟩
  | monolithic _ _ => exact ⟨_, List.mem_singleton_self _⟩

/-- What was read is looked at once, so it has the signature or it has not. -/
theorem hasSignature_eq (h : Refusal s e t) {base : UInt64} {length : Nat}
    {found : Option (List UInt8)} (hRead : ⟨.imageBytes base length, found⟩ ∈ t) :
    (e = .teeHeaderInvalid → Tee.hasSignature (found.getD []) = true) ∧
      (e = .noTeeEntryPoint → Tee.hasSignature (found.getD []) = false) := by
  cases h with
  | container hSigned hSize hCause =>
    rcases List.mem_append.1 hRead with hRead | hRead
    · rcases mem_coldCalls_iff.1 hRead with hEq | hEq <;> cases hEq
      refine ⟨fun _ => hSigned, ?_⟩
      rintro rfl
      rcases hCause with hCause | hCause <;> cases hCause
    · cases hSize _ hRead
  | monolithic hUnsigned hCause =>
    cases List.mem_singleton.1 hRead
    refine ⟨?_, fun _ => hUnsigned⟩
    rintro rfl
    rcases hCause with hCause | hCause <;> cases hCause

theorem cold (h : Refusal s e t) (hHeader : e = .teeHeaderInvalid) :
    ⟨.isDramRestored, false⟩ ∈ t ∧ ⟨.isDramRestored, true⟩ ∉ t := by
  cases h with
  | container _ hSize _ =>
    refine ⟨List.mem_append_left _ (mem_coldCalls_iff.2 (.inr rfl)), fun hMem => ?_⟩
    rcases List.mem_append.1 hMem with hMem | hMem
    · rcases mem_coldCalls_iff.1 hMem with hEq | hEq <;> cases hEq
    · cases hSize _ hMem
  | monolithic _ hCause =>
    subst hHeader
    rcases hCause with hCause | hCause <;> cases hCause

end TeeLoad.Refusal

/-- When the TEE is brought in and refused, the placement stays as it was, but for the entry point of
the TEE, which is the base of its region then: no other descriptor and no other field changes, no
survived failure is added, and neither are the parameters of this stage saved nor any clock enabled.
The image is refused for its header only if it carries the signature and DRAM lost its content, and
for want of an entry point only if it does not carry the signature. -/
theorem refused_tee_leaves_placement {p : Placement} {log : Log.Ring} {t : List Exchange} {e : Error}
    {s' : Session} (hRuns : Runs (imageLoaded .tee p log) t (.error e, s')) :
    TeeRefused p t e s'.placement ∧
      ∀ x ∈ t, x.request ≠ .saveStageParameters ∧ ∀ clock, x.request ≠ .enableClock clock := by
  obtain ⟨hRefusal, hPlacement⟩ := (teeLoad_of_runs hRuns).refusal
  constructor
  · rw [hPlacement]
    constructor
    case config => rfl
    case others =>
      intro image hOther
      exact (ImageTable.get_update _ _ _ _).trans (if_neg hOther.symm)
    case tee => rfl
    case degraded => rfl
    case read => exact hRefusal.read
    case asks => exact fun x hx => hRefusal.asks hx
    case causes => exact hRefusal.cause
    case signed =>
      intro hHeader
      refine ⟨fun base length found hRead => ?_, hRefusal.cold hHeader⟩
      exact (Tee.hasSignature_iff _).1 ((hRefusal.hasSignature_eq hRead).1 hHeader)
    case unsigned =>
      intro hEntry base length found hRead
      rw [← Tee.hasSignature_iff, (hRefusal.hasSignature_eq hRead).2 hEntry]
      exact Bool.false_ne_true
  · intro x hx
    rcases hRefusal.asks hx with hAsks | hAsks | hAsks <;> rw [hAsks] <;> exact ⟨nofun, nofun⟩

/-- A container whose pager fits, and whose paged part ends one byte behind the secure window. -/
def oversizedContainer : List UInt8 :=
  Tee.Header.encode
    ⟨.aarch64, [⟨.pager, Tee.atWindowBase, 0x1000⟩, ⟨.paged, 0xDE001000, 0x1DFF001⟩]⟩ (0, 0)

/-- Replies of a board with this container. -/
def oversizedReply : (q : Request) → q.Reply
  | .imageBytes _ _ => some oversizedContainer
  | q => usualReply 0 q

/-- The container is refused although its pager could be placed, and the parts of the TEE stay where
they were. -/
theorem oversizedContainer_leaves_parts : ∃ t s',
    Runs (imageLoaded .tee (.fresh topConfig) (.empty .info)) t (.error .teeHeaderInvalid, s') ∧
      TeeRefused (.fresh topConfig) t .teeHeaderInvalid s'.placement ∧
      (∀ x ∈ t, x.request ≠ .saveStageParameters ∧ ∀ clock, x.request ≠ .enableClock clock) ∧
      s'.placement.table.teePager = .unresolved .teePager ∧
      s'.placement.table.teePaged = .unresolved .teePaged := by
  obtain ⟨t, ⟨result, s'⟩, hRuns, hEnds⟩ := Program.exists_runs (steadyBoard oversizedReply)
    (imageLoaded .tee (.fresh topConfig) (.empty .info)) ()
    (P := fun _ ended => ended.1 = .error .teeHeaderInvalid) (by decide +kernel)
  obtain rfl : result = .error .teeHeaderInvalid := hEnds
  obtain ⟨hRefused, hCalls⟩ := refused_tee_leaves_placement hRuns
  exact ⟨t, s', hRuns, hRefused, hCalls, hRefused.others .teePager nofun,
    hRefused.others .teePaged nofun⟩

end BootStage.Placement
