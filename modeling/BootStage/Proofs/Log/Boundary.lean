import BootStage.Proofs.Log.Pieces
import Mathlib.Order.Bounds.Basic

/-!
# Where a long text is cut

A text that is too long for a message is cut by a search: from the last byte that there is room for,
one byte back at a time, to the first place at which a character begins (`StepsBack`).  Byte 0 is
such a place, so the search ends before it would leave the text, and it stops at the last boundary
that is within reach:

    StepsBack s n m ↔ m is the greatest boundary up to n                       (stepsBack_iff)
    m = (ofText s).text.utf8ByteSize, if n is the room or the end of the text

A character has at most four bytes, so a text that is cut loses at most three bytes of the room
(`ofText_cut_at_last_boundary`).
-/

namespace BootStage

namespace Text

variable {limit n m : Nat} {cs : List Char} {s : String}

theorem clipChars_eq_self_iff : clipChars limit cs = cs ↔ utf8Length cs ≤ limit := by
  have hJoin : clipChars limit (cs ++ []) = cs ↔ _ := clipChars_append_eq_left_iff
  rw [List.append_nil] at hJoin
  simp [hJoin]

theorem utf8Length_append (cs ds : List Char) :
    utf8Length (cs ++ ds) = utf8Length cs + utf8Length ds := by
  induction cs with
  | nil => simp [utf8Length]
  | cons c cs ih =>
    rw [List.cons_append, utf8Length, utf8Length, ih]
    omega

/-- Less than one character of the room is left over. -/
theorem lt_utf8Length_clipChars (h : limit < utf8Length cs) :
    limit < utf8Length (clipChars limit cs) + 4 := by
  induction cs generalizing limit with
  | nil =>
    rw [utf8Length] at h
    omega
  | cons c cs ih =>
    rw [utf8Length] at h
    rw [clipChars]
    by_cases hFirst : c.utf8Size ≤ limit
    · have hRest : limit - c.utf8Size < utf8Length (clipChars (limit - c.utf8Size) cs) + 4 :=
        ih (by omega)
      rw [if_pos hFirst, utf8Length]
      omega
    · have hSize := c.utf8Size_le_four
      rw [if_neg hFirst]
      omega

/-! ## Boundaries -/

/-- The first `n` bytes of the text are whole characters. -/
def IsBoundary (s : String) (n : Nat) : Prop := (⟨n⟩ : String.Pos.Raw).IsValid s

theorem isBoundary_iff : IsBoundary s n ↔ ∃ cs, cs <+: s.toList ∧ utf8Length cs = n := by
  unfold IsBoundary
  rw [String.Pos.Raw.isValid_iff_exists_append]
  constructor
  · rintro ⟨front, rest, rfl, hPos⟩
    refine ⟨front.toList, ?_, ?_⟩
    · rw [String.toList_append]
      exact List.prefix_append _ _
    · rw [utf8Length_toList]
      exact (congrArg String.Pos.Raw.byteIdx hPos).symm
  · rintro ⟨cs, ⟨rest, hJoin⟩, rfl⟩
    refine ⟨String.ofList cs, String.ofList rest, ?_, ?_⟩
    · rw [← String.ofList_append, hJoin, String.ofList_toList]
    · rw [← utf8ByteSize_ofList]
      rfl

theorem IsBoundary.le (h : IsBoundary s n) : n ≤ s.utf8ByteSize := h.le_utf8ByteSize

/-- The search for a boundary from byte `n` back to the byte at which it stops.  It cannot step back
from byte 0. -/
inductive StepsBack (s : String) : Nat → Nat → Prop
  | stop {n : Nat} : IsBoundary s n → StepsBack s n n
  | back {n m : Nat} : ¬ IsBoundary s (n + 1) → StepsBack s n m → StepsBack s (n + 1) m

theorem stepsBack_iff : StepsBack s n m ↔ IsGreatest {k | k ≤ n ∧ IsBoundary s k} m := by
  constructor
  · intro hSteps
    induction hSteps with
    | stop hHere => exact ⟨⟨le_rfl, hHere⟩, fun k hk => hk.1⟩
    | @back n m hNot _ ih =>
      refine ⟨⟨by have := ih.1.1; omega, ih.1.2⟩, fun k ⟨hk, hBoundary⟩ => ?_⟩
      have hOther : k ≠ n + 1 := by
        rintro rfl
        exact hNot hBoundary
      exact ih.2 ⟨by omega, hBoundary⟩
  · intro hLast
    -- At byte 0 no other boundary is left, so there is never a step to take from it.
    induction n with
    | zero =>
      obtain rfl : m = 0 := Nat.le_zero.1 hLast.1.1
      exact .stop hLast.1.2
    | succ n ih =>
      obtain ⟨⟨hUp, hBoundary⟩, hGreatest⟩ := hLast
      by_cases hHere : IsBoundary s (n + 1)
      · have hOver := hGreatest ⟨le_rfl, hHere⟩
        obtain rfl : m = n + 1 := by omega
        exact .stop hHere
      · have hOther : m ≠ n + 1 := by
          rintro rfl
          exact hHere hBoundary
        exact .back hHere (ih ⟨⟨by omega, hBoundary⟩, fun k ⟨hk, hk'⟩ =>
          hGreatest ⟨by omega, hk'⟩⟩)

theorem clip_prefix (limit : Nat) (s : String) : ∃ rest, s = clip limit s ++ rest := by
  obtain ⟨rest, hJoin⟩ := clipChars_prefix limit s.toList
  refine ⟨String.ofList rest, ?_⟩
  unfold clip
  rw [← String.ofList_append, hJoin, String.ofList_toList]

/-- The cut falls on the last boundary within the limit. -/
theorem isGreatest_clip (limit : Nat) (s : String) :
    IsGreatest {n | n ≤ limit ∧ IsBoundary s n} (clip limit s).utf8ByteSize := by
  have hBytes : (clip limit s).utf8ByteSize = utf8Length (clipChars limit s.toList) :=
    utf8ByteSize_ofList _
  refine ⟨⟨utf8ByteSize_clip_le limit s, ?_⟩, fun n ⟨hLimit, hBoundary⟩ => ?_⟩
  · rw [hBytes]
    exact isBoundary_iff.2 ⟨_, clipChars_prefix _ _, rfl⟩
  · obtain ⟨cs, hPrefix, rfl⟩ := isBoundary_iff.1 hBoundary
    obtain ⟨rest, hJoin⟩ := prefix_clipChars hPrefix hLimit
    rw [hBytes, ← hJoin, utf8Length_append]
    omega

/-- The search from the limit, or from the end of a text that is shorter, stops at the cut. -/
theorem stepsBack_clip_iff :
    StepsBack s (min s.utf8ByteSize limit) n ↔ n = (clip limit s).utf8ByteSize := by
  have hReach : {k | k ≤ min s.utf8ByteSize limit ∧ IsBoundary s k} =
      {k | k ≤ limit ∧ IsBoundary s k} := by
    ext k
    constructor
    · rintro ⟨hk, hBoundary⟩
      exact ⟨by omega, hBoundary⟩
    · rintro ⟨hk, hBoundary⟩
      have hEnd := hBoundary.le
      exact ⟨by omega, hBoundary⟩
  rw [stepsBack_iff, hReach]
  constructor
  · intro h
    exact h.unique (isGreatest_clip limit s)
  · rintro rfl
    exact isGreatest_clip limit s

theorem clip_eq_self_iff : clip limit s = s ↔ s.utf8ByteSize ≤ limit := by
  rw [← String.toList_inj, toList_clip, clipChars_eq_self_iff, utf8Length_toList]

theorem lt_utf8ByteSize_clip (h : limit < s.utf8ByteSize) :
    limit < (clip limit s).utf8ByteSize + 4 := by
  rw [← utf8Length_toList] at h
  rw [← utf8Length_toList, toList_clip]
  exact lt_utf8Length_clipChars h

end Text

namespace Log.Message

open Text (IsBoundary StepsBack)

/-- The message of a text is the part of it up to the last boundary that there is room for.  The
search for that boundary ends and finds it, the whole text is kept exactly if there is room for it,
and otherwise at most three bytes are left over. -/
theorem ofText_cut_at_last_boundary (s : String) :
    (∀ n, StepsBack s (min s.utf8ByteSize messageCapacity) n ↔
      n = (ofText s).text.utf8ByteSize) ∧
    (∃ rest, s = (ofText s).text ++ rest) ∧
    IsGreatest {n | n ≤ messageCapacity ∧ IsBoundary s n} (ofText s).text.utf8ByteSize ∧
    ((ofText s).text = s ↔ s.utf8ByteSize ≤ messageCapacity) ∧
    (messageCapacity < s.utf8ByteSize → messageCapacity ≤ (ofText s).text.utf8ByteSize + 3) := by
  refine ⟨fun n => Text.stepsBack_clip_iff, Text.clip_prefix _ s, Text.isGreatest_clip _ s,
    Text.clip_eq_self_iff, fun hLong => ?_⟩
  have hNear : messageCapacity < (ofText s).text.utf8ByteSize + 4 :=
    Text.lt_utf8ByteSize_clip hLong
  omega

/-- A text with a character of three bytes across the end of the room. -/
def straddling : String := String.ofList (List.replicate 127 'x' ++ ['€', 'x'])

/-- The character across the end is dropped, and one byte is left over. -/
theorem straddling_loses_one_byte :
    messageCapacity < straddling.utf8ByteSize ∧
      messageCapacity ≤ (ofText straddling).text.utf8ByteSize + 3 ∧
      (ofText straddling).text = String.ofList (List.replicate 127 'x') := by
  obtain ⟨-, -, -, -, hLoses⟩ := ofText_cut_at_last_boundary straddling
  have hLong : messageCapacity < straddling.utf8ByteSize := by decide +kernel
  exact ⟨hLong, hLoses hLong, by decide +kernel⟩

end Log.Message

end BootStage
