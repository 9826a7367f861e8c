import BootStage.Image.Table

/-!
# Header of a TEE container

A container starts with a header, all numbers little-endian:

    bytes 0-3     the signature "OPTE"
    byte  4       the format's version, 2
    byte  5       execution state, 0 for AArch32 and 1 for AArch64
    bytes 6-7     flags, not used
    bytes 8-11    number of segments, 1 or 2
    then 16 bytes per segment: load address (high word, low word), kind (0 pager, 1 paged), size

`Header.encode` writes a header and `Header.scan` reads one.  A header with two segments of a kind
can be read but means nothing; `Header.count` finds that out.
-/

namespace BootStage.Tee

/-- The resident part of the TEE, or the part that is loaded on demand. -/
inductive SegmentKind
  | pager
  | paged
  deriving DecidableEq

structure Segment where
  kind : SegmentKind
  address : UInt64
  size : UInt32
  deriving DecidableEq

structure Header where
  state : ExecutionState
  segments : List Segment
  deriving DecidableEq

/-- Load address that stands for the base of the segment's window. -/
def atWindowBase : UInt64 := 0xFFFFFFFF

/-- Bytes that cover any header. -/
def headerCapacity : Nat := 44

/-! ## Words -/

/-- Four bytes, least significant first, as a word. -/
def wordOfBytes (b₀ b₁ b₂ b₃ : UInt8) : UInt32 :=
  b₀.toUInt32 ||| b₁.toUInt32 <<< 8 ||| b₂.toUInt32 <<< 16 ||| b₃.toUInt32 <<< 24

/-- The bytes of a word, least significant first. -/
def bytesOfWord (w : UInt32) : List UInt8 :=
  [w.toUInt8, (w >>> 8).toUInt8, (w >>> 16).toUInt8, (w >>> 24).toUInt8]

/-- Two words as an address. -/
def addressOfWords (high low : UInt32) : UInt64 := high.toUInt64 <<< 32 ||| low.toUInt64

/-- Read a word off the front. -/
def takeWord : List UInt8 → Option (UInt32 × List UInt8)
  | b₀ :: b₁ :: b₂ :: b₃ :: rest => some (wordOfBytes b₀ b₁ b₂ b₃, rest)
  | _ => none

/-! ## Segments -/

def SegmentKind.ofWord? (w : UInt32) : Option SegmentKind :=
  if w = 0 then some .pager else if w = 1 then some .paged else none

def SegmentKind.word : SegmentKind → UInt32
  | .pager => 0
  | .paged => 1

namespace Segment

def encode (s : Segment) : List UInt8 :=
  bytesOfWord (s.address >>> 32).toUInt32 ++ bytesOfWord s.address.toUInt32 ++
    bytesOfWord s.kind.word ++ bytesOfWord s.size

/-- Read a segment record off the front. -/
def take (bytes : List UInt8) : Option (Segment × List UInt8) := do
  let (high, bytes) ← takeWord bytes
  let (low, bytes) ← takeWord bytes
  let (kind, bytes) ← takeWord bytes
  let (size, bytes) ← takeWord bytes
  let kind ← SegmentKind.ofWord? kind
  some (⟨kind, addressOfWords high low, size⟩, bytes)

/-- Read `n` segment records; what follows them is not looked at. -/
def takeMany : Nat → List UInt8 → Option (List Segment)
  | 0, _ => some []
  | n + 1, bytes => do
    let (s, bytes) ← take bytes
    let rest ← takeMany n bytes
    some (s :: rest)

end Segment

/-! ## Headers -/

/-- The signature "OPTE". -/
def signature : List UInt8 := [0x4F, 0x50, 0x54, 0x45]

def hasSignature (bytes : List UInt8) : Bool := signature.isPrefixOf bytes

def formatVersion : UInt8 := 2

/-- What stands at the front of an image. -/
inductive Scan
  | unsigned
  | malformed
  | header (h : Header)
  deriving DecidableEq

def stateOfByte? (b : UInt8) : Option ExecutionState :=
  if b = 0 then some .aarch32 else if b = 1 then some .aarch64 else none

def stateByte : ExecutionState → UInt8
  | .aarch32 => 0
  | .aarch64 => 1

namespace Header

def encode (h : Header) (flags : UInt8 × UInt8) : List UInt8 :=
  signature ++ [formatVersion, stateByte h.state, flags.1, flags.2] ++
    bytesOfWord (UInt32.ofNat h.segments.length) ++ h.segments.flatMap Segment.encode

/-- Read what follows the signature. -/
def takeBody : List UInt8 → Option Header
  | version :: state :: _ :: _ :: rest => do
    if version ≠ formatVersion then failure
    let state ← stateOfByte? state
    let (count, rest) ← takeWord rest
    if count = 0 ∨ 2 < count then failure
    let segments ← Segment.takeMany count.toNat rest
    some ⟨state, segments⟩
  | _ => none

def scan (bytes : List UInt8) : Scan :=
  if hasSignature bytes then
    match takeBody (bytes.drop signature.length) with
    | some h => .header h
    | none => .malformed
  else .unsigned

/-- Segments of one kind: none, one, or so many that the header means nothing. -/
inductive Count
  | absent
  | one (s : Segment)
  | several
  deriving DecidableEq

def count (h : Header) (kind : SegmentKind) : Count :=
  match h.segments.filter (·.kind = kind) with
  | [] => .absent
  | [s] => .one s
  | _ => .several

end Header

/-- The load address that a readable header gives the pager. -/
def pagerAddress? (bytes : List UInt8) : Option UInt64 :=
  match Header.scan bytes with
  | .header h =>
    match h.count .pager with
    | .one s => some s.address
    | _ => none
  | _ => none

end BootStage.Tee
