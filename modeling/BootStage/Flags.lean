/-!
# Named bits of a 32-bit word

A `Flag` type names single bits of a word.  `Flags φ` is a word read that way.  Bits without a name
are carried along: inserting and erasing a flag touches its own bit only.
-/

namespace BootStage

/-- Names for single bits, in the order in which they are listed. -/
class Flag (φ : Type) where
  all : List φ
  bit : φ → UInt32

/-- A word whose bits are named by `φ`. -/
@[ext] structure Flags (φ : Type) where
  bits : UInt32
  deriving DecidableEq

namespace Flags

variable {φ : Type}

def empty : Flags φ := ⟨0⟩

instance : Inhabited (Flags φ) := ⟨empty⟩

/-- No bit is set, named or not. -/
def isEmpty (s : Flags φ) : Bool := s.bits == 0

variable [Flag φ]

def has (s : Flags φ) (f : φ) : Bool := s.bits &&& Flag.bit f != 0

def insert (s : Flags φ) (f : φ) : Flags φ := ⟨s.bits ||| Flag.bit f⟩

def erase (s : Flags φ) (f : φ) : Flags φ := ⟨s.bits &&& ~~~(Flag.bit f)⟩

def ofList (fs : List φ) : Flags φ := fs.foldl insert empty

/-- The word with every named bit set. -/
def known : Flags φ := ofList Flag.all

/-- Forget the bits that have no name. -/
def truncate (s : Flags φ) : Flags φ := ⟨s.bits &&& (known : Flags φ).bits⟩

/-- Every set bit has a name. -/
def isExact (s : Flags φ) : Bool := s.bits == s.truncate.bits

/-- The flags that are set, in listing order. -/
def members (s : Flags φ) : List φ := Flag.all.filter s.has

end Flags

end BootStage
