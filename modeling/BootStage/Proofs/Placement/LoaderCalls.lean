import BootStage.Proofs.Placement.Frame

/-!
# Calls of the loader

The loader calls with an image or with a number of its own for it (`Arrival`).  A `Handling` is one
such call with all that it found, asked, answered and left, and it is `Confined` if it changed and
asked no more than its image may.  Every call is (`Handling.Genuine.confined`), and what no call may
change is kept by all of them (`loader_calls_framed`).
-/

namespace BootStage

/-! ## Loader numbers -/

theorem ImageId.ofLoaderNumber_eq_ok_iff {number : UInt32} {image : ImageId} :
    ofLoaderNumber number = .ok image ↔ image.loaderNumber = number := by
  constructor
  · intro h
    unfold ofLoaderNumber at h
    split at h
    · next hFound =>
      cases h
      have hNumber := List.find?_some hFound
      exact eq_of_beq hNumber
    · cases h
  · rintro rfl
    exact ofLoaderNumber_loaderNumber image

theorem ImageId.ofLoaderNumber_eq_error {number : UInt32}
    (h : ∀ image : ImageId, image.loaderNumber ≠ number) :
    ofLoaderNumber number = .error .unknownImage := by
  unfold ofLoaderNumber
  split
  · next image hFound =>
    have hNumber := List.find?_some hFound
    exact absurd (eq_of_beq hNumber) (h image)
  · rfl

namespace Placement

open Descriptor (Changed changed_refl)

/-! ## Single calls -/

/-- The loader names the image that it brought in, or gives its own number for it. -/
inductive Arrival
  | named (image : ImageId)
  | numbered (number : UInt32)
  deriving DecidableEq

namespace Arrival

/-- The image that was brought in. -/
def Names : Arrival → ImageId → Prop
  | .named own, image => image = own
  | .numbered number, image => image.loaderNumber = number

def handle : Arrival → Placement → Log.Ring → Program (Except Error Unit × Session)
  | .named image => imageLoaded image
  | .numbered number => numberLoaded number

theorem handle_of_names {arrival : Arrival} {image : ImageId} (h : arrival.Names image)
    (p : Placement) (log : Log.Ring) : arrival.handle p log = imageLoaded image p log := by
  cases arrival with
  | named _ =>
    cases h
    rfl
  | numbered number =>
    show numberLoaded number p log = _
    unfold numberLoaded
    rw [ImageId.ofLoaderNumber_eq_ok_iff.2 h]

theorem handle_of_not_names {arrival : Arrival} (h : ∀ image, ¬ arrival.Names image)
    (p : Placement) (log : Log.Ring) :
    arrival.handle p log = pure (.error .unknownImage, ⟨p, log⟩) := by
  cases arrival with
  | named own => exact absurd rfl (h own)
  | numbered number =>
    show numberLoaded number p log = _
    unfold numberLoaded
    rw [ImageId.ofLoaderNumber_eq_error h]

end Arrival

/-- A call of the loader: what it found, its exchanges, how it ended and what it left. -/
structure Handling where
  arrival : Arrival
  before : Session
  exchanges : List Exchange
  result : Except Error Unit
  after : Session

namespace Handling

/-- The call is one that placement can make. -/
def Genuine (h : Handling) : Prop :=
  Runs (h.arrival.handle h.before.placement h.before.log) h.exchanges (h.result, h.after)

/-- Nothing was asked, and nothing changed. -/
def Idle (h : Handling) : Prop := h.exchanges = [] ∧ h.after = h.before

/-- The call changed no more than its image may.  For the non-secure firmware it flushed the region
of the firmware and asked for nothing else; if nothing is to be done for the image, or the number is
unknown, then nothing was done. -/
structure Confined (h : Handling) : Prop where
  framed : ∀ loaded, h.arrival.Names loaded →
    Framed loaded h.before.placement.table h.after.placement.table
  untouched : ∀ loaded, h.arrival.Names loaded → ∀ image, writes loaded image = [] →
    h.after.placement.table.get image = h.before.placement.table.get image
  flushes : h.arrival.Names .nonSecureFirmware → h.result = .ok () ∧ h.exchanges =
    [⟨.flushCache h.before.placement.table.nonSecureFirmware.region.base
      h.before.placement.table.nonSecureFirmware.region.size, ()⟩]
  idle : ∀ image, h.arrival.Names image → Inert image → h.result = .ok () ∧ h.Idle
  unknown : (∀ image, ¬ h.arrival.Names image) → h.result = .error .unknownImage ∧ h.Idle

theorem Genuine.confined {h : Handling} (hGenuine : h.Genuine) : h.Confined := by
  obtain ⟨arrival, ⟨p, log⟩, t, result, after⟩ := h
  have hRuns : Runs (arrival.handle p log) t (result, after) := hGenuine
  have hFramed : ∀ loaded, arrival.Names loaded → Framed loaded p.table after.placement.table := by
    intro loaded hNames
    rw [Arrival.handle_of_names hNames] at hRuns
    exact frames_afterLoad loaded _ _ _ _ hRuns
  refine ⟨hFramed, fun loaded hNames image hNone => (hFramed loaded hNames).get_eq hNone,
    fun hNames => ?_, fun image hNames hInert => ?_, fun hUnknown => ?_⟩
  · rw [Arrival.handle_of_names hNames] at hRuns
    obtain ⟨hFlushes, hResult, -⟩ := ensures_handOffNonSecure _ _ _ _ hRuns
    exact ⟨hResult, hFlushes⟩
  · rw [Arrival.handle_of_names hNames, hInert.imageLoaded] at hRuns
    obtain ⟨hSilent, hEq⟩ := runs_pure_iff.1 hRuns
    cases hEq
    exact ⟨rfl, hSilent, rfl⟩
  · rw [Arrival.handle_of_not_names hUnknown] at hRuns
    obtain ⟨hSilent, hEq⟩ := runs_pure_iff.1 hRuns
    cases hEq
    exact ⟨rfl, hSilent, rfl⟩

/-- Whether the arrival is known or not, it changes only what may change of a descriptor at all. -/
theorem Confined.changed {h : Handling} (hConfined : h.Confined) (image : ImageId) :
    Changed changeable (h.before.placement.table.get image)
      (h.after.placement.table.get image) := by
  by_cases hNamed : ∃ loaded, h.arrival.Names loaded
  · obtain ⟨loaded, hNames⟩ := hNamed
    exact (hConfined.framed loaded hNames image).mono (writes_subset_changeable loaded image)
  · obtain ⟨-, -, hSame⟩ := hConfined.unknown (not_exists.1 hNamed)
    rw [hSame]
    exact changed_refl _ _

end Handling

/-! ## Calls in turn -/

/-- Calls of the loader, one after the other; the log is lent anew each time. -/
inductive Handlings : Placement → List Handling → Placement → Prop
  | nil (p : Placement) : Handlings p [] p
  | cons {h : Handling} {handlings : List Handling} {q : Placement} : h.Genuine →
      Handlings h.after.placement handlings q →
      Handlings h.before.placement (h :: handlings) q

theorem Handlings.changed {p q : Placement} {handlings : List Handling}
    (h : Handlings p handlings q) (image : ImageId) :
    Changed changeable (p.table.get image) (q.table.get image) := by
  induction h with
  | nil _ => exact changed_refl _ _
  | cons hGenuine _ ih => exact (hGenuine.confined.changed image).trans ih

theorem Handlings.confined {p q : Placement} {handlings : List Handling}
    (h : Handlings p handlings q) : ∀ x ∈ handlings, x.Confined := by
  induction h with
  | nil _ =>
    intro x hx
    cases hx
  | cons hGenuine _ ih => exact List.forall_mem_cons.2 ⟨hGenuine.confined, ih⟩

/-- Whatever the loader calls, with images or with numbers, in whatever order and however the calls
end: every descriptor keeps its identity and the unnamed bits of its attributes, and no image that
was to be fetched is set aside.  Each call changes only what its image may, the non-secure firmware
has exactly its region flushed, and every other image and every unknown number leave all as it
was. -/
theorem loader_calls_framed {p q : Placement} {handlings : List Handling}
    (h : Handlings p handlings q) :
    (∀ image, (q.table.get image).id = (p.table.get image).id ∧
      (q.table.get image).attributes.erase .skipLoading =
        (p.table.get image).attributes.erase .skipLoading ∧
      ((p.table.get image).skipsLoading = false → (q.table.get image).skipsLoading = false)) ∧
    ∀ x ∈ handlings, x.Confined := by
  refine ⟨fun image => ?_, h.confined⟩
  have hChanged := h.changed image
  exact ⟨hChanged.kept .id (by decide), hChanged.kept .otherAttributes (by decide),
    hChanged.fetched⟩

/-! ## Calls on a board -/

/-- A call as it goes on a board that answers as `answer` says. -/
def handledOn (answer : (q : Request) → q.Reply) (arrival : Arrival) (s : Session) : Handling where
  arrival := arrival
  before := s
  exchanges := (arrival.handle s.placement s.log).transcript (steadyBoard answer) ()
  result := ((arrival.handle s.placement s.log).exec (steadyBoard answer) ()).1.1
  after := ((arrival.handle s.placement s.log).exec (steadyBoard answer) ()).1.2

/-- Calls as they go, one after the other, on a board that answers as `answer` says. -/
def handledInTurn (answer : (q : Request) → q.Reply) : List Arrival → Session → List Handling
  | [], _ => []
  | arrival :: arrivals, s =>
    handledOn answer arrival s ::
      handledInTurn answer arrivals (handledOn answer arrival s).after

theorem exists_handlings (answer : (q : Request) → q.Reply) (arrivals : List Arrival)
    (s : Session) : ∃ q, Handlings s.placement (handledInTurn answer arrivals s) q := by
  induction arrivals generalizing s with
  | nil => exact ⟨s.placement, .nil _⟩
  | cons arrival arrivals ih =>
    obtain ⟨q, hRest⟩ := ih (handledOn answer arrival s).after
    refine ⟨q, .cons ?_ hRest⟩
    exact Program.runs_transcript (steadyBoard answer) (arrival.handle s.placement s.log) ()

/-- Replies of a board whose configuration describes the TEE and the non-secure firmware. -/
def describingReply : (q : Request) → q.Reply
  | .imagePlace .tee => some ⟨0x2FFC0000, 0x19000⟩
  | .imagePlace .nonSecureFirmware => some ⟨0xC0100000, 0x400000⟩
  | q => usualReply 0 q

/-- The loader's calls for these two images, and one with a number that is no image's. -/
def describedCalls : List Handling :=
  handledInTurn describingReply [.numbered 31, .numbered 4, .named .nonSecureFirmware, .numbered 99]
    ⟨.fresh .standard, .empty .info⟩

/-- The firmware's own region is flushed, and the unknown number is refused without a trace. -/
theorem described_calls_framed : ∃ q, Handlings (.fresh .standard) describedCalls q ∧
    q.table.tee.id = .tee ∧
    (∃ x ∈ describedCalls, x.arrival = .named .nonSecureFirmware ∧
      x.exchanges = [⟨.flushCache 0xC0100000 0x400000, ()⟩]) ∧
    ∃ x ∈ describedCalls, x.arrival = .numbered 99 ∧ x.result = .error .unknownImage ∧
      x.exchanges = [] ∧ x.after = x.before := by
  obtain ⟨q, h⟩ : ∃ q, Handlings (.fresh .standard) describedCalls q :=
    exists_handlings describingReply _ ⟨.fresh .standard, .empty .info⟩
  obtain ⟨hKept, hConfined⟩ := loader_calls_framed h
  refine ⟨q, h, (hKept .tee).1, ?_, ?_⟩
  · obtain ⟨x, hx, hArrival, hBase, hSize⟩ : ∃ x ∈ describedCalls,
        x.arrival = .named .nonSecureFirmware ∧
        x.before.placement.table.nonSecureFirmware.region.base = 0xC0100000 ∧
        x.before.placement.table.nonSecureFirmware.region.size = 0x400000 := by
      decide +kernel
    have hFlushes := ((hConfined x hx).flushes (by rw [hArrival]; rfl)).2
    rw [hBase, hSize] at hFlushes
    exact ⟨x, hx, hArrival, hFlushes⟩
  · obtain ⟨x, hx, hArrival⟩ : ∃ x ∈ describedCalls, x.arrival = .numbered 99 := by
      decide +kernel
    have hUnknown : ∀ image, ¬ x.arrival.Names image := by
      rw [hArrival]
      intro image
      show image.loaderNumber ≠ 99
      cases image <;> decide
    obtain ⟨hResult, hSilent, hSame⟩ := (hConfined x hx).unknown hUnknown
    exact ⟨x, hx, hArrival, hResult, hSilent, hSame⟩

end Placement

end BootStage
