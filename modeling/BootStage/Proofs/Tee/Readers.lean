import BootStage.Placement.Tee
import BootStage.Proofs.Tee.Parse

/-!
# The readers of a header agree

Three readers look at the front of a TEE image: the test for the signature, the look-up of the
pager's load address, from which its window is chosen, and the parser, which places the parts.  None
of them sees a container where another does not:

    no signature                      ↔ the parser calls the image monolithic
    the parser splits the image       → the look-up finds the address of the pager that is placed
    a signature, and no address found → the parser refuses the image, whatever the windows

The last two are two sides of one fact, that a header that can be placed has exactly one pager
(`Header.Places.pagerAddress?_eq`).  By the first one the placement of a container never has a
monolithic image to deal with: what it would do with one makes no difference (`placeTeeOr_eq`).
-/

namespace BootStage

namespace Placement

/-- The placement of a container with `other` for what is done if it turns out to be monolithic. -/
def placeContainerOr (other : Placing Unit) (bytes : List UInt8) (base : UInt64) :
    Placing Unit := do
  let windows ← teeWindows bytes
  let config ← Placing.config
  match Tee.Image.parse bytes base windows config.reservedRegions with
  | .ok (.split parts) => placeSplit parts
  | .ok (.monolithic _) => other
  | .error e =>
    Placing.note .error ["OPTEE header parse error."]
    throw e

/-- The placement of the TEE with `other` for what is done if a container turns out to be
monolithic. -/
def placeTeeOr (other : Placing Unit) : Placing Unit := do
  let base := (← Placing.table).tee.region.base
  Placing.enterAt .tee base
  let bytes := (← Board.imageBytes base Tee.headerCapacity).getD []
  if Tee.hasSignature bytes then
    if ← Board.isDramRestored then
      resumeTee
    else
      placeContainerOr other bytes base
      keepParameters
  else
    placeMonolithic
    keepParameters

end Placement

namespace Tee

variable {bytes : List UInt8} {base : UInt64} {windows : Windows} {reserved : List Region}

/-! ## The signature -/

theorem exists_monolithic_iff :
    (∃ address, Image.parse bytes base windows reserved = .ok (.monolithic address)) ↔
      hasSignature bytes = false := by
  simp only [parse_eq_monolithic_iff, exists_and_left, exists_eq, and_true, ← hasSignature_iff,
    Bool.not_eq_true]

theorem exists_split_of_signed {image : Image} (hSigned : hasSignature bytes)
    (hParse : Image.parse bytes base windows reserved = .ok image) :
    ∃ parts, image = .split parts := by
  cases image with
  | split parts => exact ⟨parts, rfl⟩
  | monolithic address =>
    have hUnsigned := exists_monolithic_iff.1 ⟨address, hParse⟩
    rw [hUnsigned] at hSigned
    cases hSigned

theorem placeContainerOr_eq (other : Placing Unit) (hSigned : hasSignature bytes) (base : UInt64) :
    Placement.placeContainerOr other bytes base = Placement.placeContainer bytes base := by
  refine bind_congr fun windows => bind_congr fun config => ?_
  cases hParse : Image.parse bytes base windows config.reservedRegions with
  | error e => rfl
  | ok image =>
    obtain ⟨parts, rfl⟩ := exists_split_of_signed hSigned hParse
    rfl

/-- A container never turns out to be monolithic. -/
theorem placeTeeOr_eq (other : Placing Unit) : Placement.placeTeeOr other = Placement.placeTee := by
  refine bind_congr fun table => bind_congr fun _ => bind_congr fun bytes? => ?_
  by_cases hSigned : hasSignature (bytes?.getD [])
  · simp only [hSigned, placeContainerOr_eq other hSigned]
  · simp only [hSigned, Bool.false_eq_true, if_false]

/-! ## The address of the pager -/

/-- The address that is looked up is the one at which the pager is placed, unless it stands for the
base of the window. -/
theorem Header.Places.pagerAddress?_eq {h : Header} {parts : Split}
    (hPlaces : h.Places windows reserved parts) (flags : UInt8 × UInt8) (rest : List UInt8) :
    ∃ address, pagerAddress? (h.encode flags ++ rest) = some address ∧
      parts.pager.base = if address = atWindowBase then windows.pager.base else address := by
  obtain ⟨pager, hOnly, hAddress⟩ := hPlaces.exists_pager flags rest
  have hCount := (count_eq_one_iff h .pager pager).2 hOnly
  obtain ⟨hPager, -⟩ := place?_eq_some_iff_parts.1 (place?_eq_some_iff.2 hPlaces)
  obtain ⟨placed, hPlaced, -, hRegion⟩ := placePager?_eq_some_iff.1 hPager
  rw [hCount] at hPlaced
  obtain rfl := Count.one.inj hPlaced
  refine ⟨pager.address, hAddress, ?_⟩
  rw [hRegion]
  rfl

theorem parse_eq_error_of_pagerAddress?_eq_none (hSigned : hasSignature bytes)
    (hNone : pagerAddress? bytes = none) :
    Image.parse bytes base windows reserved = .error .teeHeaderInvalid := by
  refine parse_eq_error_iff.2 ⟨(hasSignature_iff bytes).1 hSigned, ?_⟩
  rintro h flags rest parts rfl hPlaces
  obtain ⟨address, hAddress, -⟩ := hPlaces.pagerAddress?_eq flags rest
  rw [hNone] at hAddress
  cases hAddress

/-- The three readers agree on every image: an image without the signature is what the parser calls
monolithic, a container that is split is entered at the address that was looked up, and one in which
no address can be looked up is refused for all windows and reserved regions. -/
theorem readers_agree (bytes : List UInt8) :
    (∀ base windows reserved, hasSignature bytes = false ↔
      ∃ address, Image.parse bytes base windows reserved = .ok (.monolithic address)) ∧
    (∀ other, Placement.placeTeeOr other = Placement.placeTee) ∧
    (∀ base windows reserved parts,
      Image.parse bytes base windows reserved = .ok (.split parts) →
      ∃ address, pagerAddress? bytes = some address ∧ (Image.split parts).entryPoint =
        if address = atWindowBase then windows.pager.base else address) ∧
    (hasSignature bytes → pagerAddress? bytes = none → ∀ base windows reserved,
      Image.parse bytes base windows reserved = .error .teeHeaderInvalid) := by
  refine ⟨fun _ _ _ => exists_monolithic_iff.symm, placeTeeOr_eq, ?_, ?_⟩
  · intro base windows reserved parts hParse
    obtain ⟨h, flags, rest, rfl, hPlaces⟩ := (parse_eq_split_iff parts).1 hParse
    exact hPlaces.pagerAddress?_eq flags rest
  · intro hSigned hNone base windows reserved
    exact parse_eq_error_of_pagerAddress?_eq_none hSigned hNone

/-- A container with two pagers. -/
def twoPagers : List UInt8 :=
  Header.encode ⟨.aarch32, [⟨.pager, 0x1000, 0x10⟩, ⟨.pager, 0x2000, 0x10⟩]⟩ (0, 0)

/-- A container that is split is entered where the look-up says, and one with two pagers is refused
wherever it is to be placed. -/
theorem containers_read_alike :
    (∃ parts, Image.parse pagedFirst 7 crossingWindows crossingReserved = .ok (.split parts) ∧
      pagerAddress? pagedFirst = some atWindowBase ∧
      (Image.split parts).entryPoint = crossingWindows.pager.base) ∧
    hasSignature twoPagers ∧ pagerAddress? twoPagers = none ∧
      ∀ base windows reserved,
        Image.parse twoPagers base windows reserved = .error .teeHeaderInvalid := by
  obtain ⟨-, -, hSplit, -⟩ := readers_agree pagedFirst
  obtain ⟨-, -, -, hRefused⟩ := readers_agree twoPagers
  have hFound : pagerAddress? pagedFirst = some atWindowBase := by decide +kernel
  obtain ⟨address, hAddress, hEntry⟩ := hSplit _ _ _ _ parse_pagedFirst
  rw [hFound] at hAddress
  obtain rfl := Option.some.inj hAddress
  have hSigned : hasSignature twoPagers := by decide +kernel
  have hNone : pagerAddress? twoPagers = none := by decide +kernel
  exact ⟨⟨_, parse_pagedFirst, hFound, hEntry⟩, hSigned, hNone, hRefused hSigned hNone⟩

end Tee

end BootStage
