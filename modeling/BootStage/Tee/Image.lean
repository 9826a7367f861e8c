import BootStage.Tee.Header

/-!
# TEE images

An image without the signature is monolithic and runs where it was loaded.  A container is split
into a pager and possibly a paged part, each of which has to lie in a window of its own, clear of
the regions that are reserved and of the other part.  A container that does not meet all of that is
refused as a whole.
-/

namespace BootStage.Tee

/-- Windows for the two parts. -/
structure Windows where
  pager : Region
  paged : Region
  deriving DecidableEq

/-- A container whose parts have been placed. -/
structure Split where
  pager : Region
  /-- Empty if the container has no paged part. -/
  paged : Region
  state : ExecutionState
  deriving DecidableEq

/-- The TEE is entered at the base of the pager. -/
def Split.entryPoint (s : Split) : UInt64 := s.pager.base

inductive Image
  | monolithic (address : UInt64)
  | split (parts : Split)
  deriving DecidableEq

namespace Image

def entryPoint : Image → UInt64
  | monolithic address => address
  | split parts => parts.entryPoint

end Image

namespace Segment

/-- Where the segment is loaded. -/
def base (s : Segment) (window : Region) : UInt64 :=
  if s.address = atWindowBase then window.base else s.address

/-- The segment's bytes, mapped with `attributes`. -/
def region (s : Segment) (window : Region) (attributes : Flags MapAttribute) : Region :=
  ⟨s.base window, s.size.toUInt64, attributes⟩

/-- The segment is not empty, lies in its window and touches no reserved region. -/
def fits (s : Segment) (window : Region) (reserved : List Region) : Bool :=
  s.size != 0 && window.containsRange (s.base window) s.size.toUInt64 &&
    !reserved.any (·.overlaps (s.region window .empty))

/-- The segment's region, if the segment fits. -/
def place? (s : Segment) (window : Region) (reserved : List Region)
    (attributes : Flags MapAttribute) : Option Region :=
  if s.fits window reserved then some (s.region window attributes) else none

end Segment

def pagerAttributes : Flags MapAttribute := .ofList [.code, .secure]

def pagedAttributes : Flags MapAttribute := .ofList [.readWrite, .secure]

namespace Header

/-- The region of the pager; there has to be one. -/
def placePager? (h : Header) (windows : Windows) (reserved : List Region) : Option Region :=
  match h.count .pager with
  | .one s => s.place? windows.pager reserved pagerAttributes
  | _ => none

/-- The region of the paged part, empty at the base of its window if there is none. -/
def placePaged? (h : Header) (windows : Windows) (reserved : List Region) : Option Region :=
  match h.count .paged with
  | .absent => some ⟨windows.paged.base, 0, pagedAttributes⟩
  | .one s => s.place? windows.paged reserved pagedAttributes
  | .several => none

def place? (h : Header) (windows : Windows) (reserved : List Region) : Option Split := do
  let pager ← h.placePager? windows reserved
  let paged ← h.placePaged? windows reserved
  if paged.overlaps pager then failure
  some ⟨pager, paged, h.state⟩

end Header

/-- Read the image that was loaded at `base`. -/
def Image.parse (bytes : List UInt8) (base : UInt64) (windows : Windows) (reserved : List Region) :
    Except Error Image :=
  match Header.scan bytes with
  | .unsigned => .ok (.monolithic base)
  | .malformed => .error .teeHeaderInvalid
  | .header h =>
    match h.place? windows reserved with
    | some parts => .ok (.split parts)
    | none => .error .teeHeaderInvalid

end BootStage.Tee
