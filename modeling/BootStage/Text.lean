/-!
# Text

Numerals in base sixteen, and texts cut to a byte budget.

`hex w n` writes `n` with lower-case digits, `hexUpper w n` with upper-case ones; both fill up with
zeros on the left to `w` digits and never cut a longer numeral.

Texts are measured by their UTF-8 encoding.  A character is never split, so the cut falls on the
last character boundary inside the budget:

    utf8Length (clipChars limit cs) ≤ limit                     (utf8Length_clipChars_le)
    clipChars limit cs <+: cs                                   (clipChars_prefix)
-/

namespace BootStage.Text

/-! ## Numerals -/

/-- Base-sixteen digits of `n`, most significant first, at least `width` of them. -/
def hexDigits (width n : Nat) : List Char :=
  let digits := Nat.toDigits 16 n
  List.replicate (width - digits.length) '0' ++ digits

def hex (width n : Nat) : String := String.ofList (hexDigits width n)

def hexUpper (width n : Nat) : String := String.ofList ((hexDigits width n).map Char.toUpper)

theorem le_length_hexDigits (width n : Nat) : width ≤ (hexDigits width n).length := by
  simp only [hexDigits, List.length_append, List.length_replicate]
  omega

/-! ## Cutting -/

/-- Bytes of the UTF-8 encoding. -/
def utf8Length : List Char → Nat
  | [] => 0
  | c :: cs => c.utf8Size + utf8Length cs

/-- The longest initial part whose encoding has at most `limit` bytes. -/
def clipChars : Nat → List Char → List Char
  | _, [] => []
  | limit, c :: cs => if c.utf8Size ≤ limit then c :: clipChars (limit - c.utf8Size) cs else []

/-- `s` cut at the last character boundary within `limit` bytes. -/
def clip (limit : Nat) (s : String) : String := String.ofList (clipChars limit s.toList)

/-- `needle` occurs in `cs` as a run of consecutive characters. -/
def occursIn (needle : List Char) : List Char → Bool
  | [] => needle.isEmpty
  | c :: cs => needle.isPrefixOf (c :: cs) || occursIn needle cs

theorem utf8ByteSize_ofList (cs : List Char) : (String.ofList cs).utf8ByteSize = utf8Length cs := by
  induction cs with
  | nil => rfl
  | cons c cs ih => rw [String.ofList_cons, String.utf8ByteSize_append, ih]; simp [utf8Length]

theorem utf8Length_clipChars_le (limit : Nat) (cs : List Char) :
    utf8Length (clipChars limit cs) ≤ limit := by
  induction cs generalizing limit with
  | nil => simp [clipChars, utf8Length]
  | cons c cs ih =>
    rw [clipChars]
    split
    · have := ih (limit - c.utf8Size)
      simp only [utf8Length]
      omega
    · simp [utf8Length]

theorem clipChars_prefix (limit : Nat) (cs : List Char) : clipChars limit cs <+: cs := by
  induction cs generalizing limit with
  | nil => simp [clipChars]
  | cons c cs ih =>
    rw [clipChars]
    split
    · exact List.cons_prefix_cons.2 ⟨rfl, ih _⟩
    · exact List.nil_prefix

theorem utf8ByteSize_clip_le (limit : Nat) (s : String) : (clip limit s).utf8ByteSize ≤ limit := by
  rw [clip, utf8ByteSize_ofList]
  exact utf8Length_clipChars_le limit s.toList

end BootStage.Text
