import BootStage.Text

/-!
# Log entries

An entry has a level, a sequence number, the name of the module that wrote it and a message of at
most 128 bytes.  A message is made either from a whole text, which is cut at a character boundary,
or from the pieces of a formatted text, of which only whole pieces are kept: the first one that no
longer fits ends the message.
-/

namespace BootStage.Log

/-- Severity of an entry, most severe first. -/
inductive Level
  | error
  | notice
  | warning
  | info
  | debug
  deriving DecidableEq

namespace Level

def rank : Level → Nat
  | error => 0
  | notice => 1
  | warning => 2
  | info => 3
  | debug => 4

/-- Name on the console. -/
def label : Level → String
  | error => "ERROR"
  | notice => "NOTICE"
  | warning => "WARNING"
  | info => "INFO"
  | debug => "DEBUG"

/-- At least as severe as `threshold`. -/
def passes (level threshold : Level) : Bool := level.rank ≤ threshold.rank

end Level

/-- Module name of the stage itself. -/
def stageSource : String := "bl2"

/-- Bytes of a message. -/
def messageCapacity : Nat := 128

/-- A text of at most `messageCapacity` bytes. -/
@[ext] structure Message where
  text : String
  fits : text.utf8ByteSize ≤ messageCapacity
  deriving DecidableEq

namespace Message

def empty : Message := ⟨"", by decide⟩

/-- A whole text, cut at the last character boundary that fits. -/
def ofText (s : String) : Message := ⟨Text.clip messageCapacity s, Text.utf8ByteSize_clip_le _ s⟩

/-- The message with a further piece, if there is room for all of it. -/
def append? (m : Message) (piece : String) : Option Message :=
  if h : (m.text ++ piece).utf8ByteSize ≤ messageCapacity then some ⟨m.text ++ piece, h⟩ else none

/-- The message with further pieces, up to the first for which there is no room. -/
def appendPieces (m : Message) : List String → Message
  | [] => m
  | piece :: pieces =>
    match m.append? piece with
    | some m' => m'.appendPieces pieces
    | none => m

def ofPieces (pieces : List String) : Message := empty.appendPieces pieces

theorem append?_text {m m' : Message} {piece : String} (h : m.append? piece = some m') :
    m'.text = m.text ++ piece := by
  unfold append? at h
  split at h
  · cases h; rfl
  · cases h

end Message

structure Entry where
  level : Level
  sequence : UInt32
  source : String
  message : Message
  deriving DecidableEq

/-- The console line, as in `WARNING:   [bl2] console: [0x0401] console unavailable`. -/
def Entry.line (e : Entry) : String :=
  e.level.label ++ ":   [" ++ e.source ++ "] " ++ e.message.text

end BootStage.Log
