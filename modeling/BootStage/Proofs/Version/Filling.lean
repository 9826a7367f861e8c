import BootStage.Proofs.Version
import Mathlib.Data.Nat.Bitwise

/-!
# Which bits are added when a version is recorded

A word is filled from below: whatever is added to it lies under every bit that stays clear
(`FilledUp`).  Setting the lowest clear bit is one such step, the steps compose, and so a word that
is advanced to a version is filled up too.

    FilledUp w u ∧ w &&& v = w ∧ bitCount u ≤ bitCount v → u ≤ v               (FilledUp.le)

A filled-up word is therefore determined by its number of bits, which settles what a unary word is
advanced to and that it makes no difference to stop at a lower version first
(`advance_fills_from_below`).

`Filling` is the loop that sets one bit after the other until the version is recorded.  It always
ends, and the word that it ends with is `advance` (`filling_iff`).
-/

namespace BootStage

variable {w u v : UInt32} {version lower : FirmwareVersion}

/-! ## The order of words by their bits -/

/-- Of two words, the smaller one lacks the highest bit in which they differ. -/
theorem exists_highest_difference (h : u < v) :
    ∃ k, k ∉ burntBits u ∧ k ∈ burntBits v ∧ ∀ j, k < j → (j ∈ burntBits u ↔ j ∈ burntBits v) := by
  have hLess : u.toNat < v.toNat := UInt32.lt_iff_toNat_lt.1 h
  have hDiffer : u.toNat ^^^ v.toNat ≠ 0 := by
    rw [Ne, Nat.xor_eq_zero_iff]
    omega
  obtain ⟨k, hk, hAbove⟩ := Nat.exists_most_significant_bit hDiffer
  have hSame : ∀ j, k < j → u.toNat.testBit j = v.toNat.testBit j := by
    intro j hj
    have hBit := hAbove j hj
    rw [Nat.testBit_xor] at hBit
    simpa using hBit
  refine ⟨k, ?_⟩
  simp only [mem_burntBits]
  rw [Nat.testBit_xor] at hk
  cases hu : u.toNat.testBit k with
  | false =>
    rw [hu, Bool.false_xor] at hk
    exact ⟨by decide, hk, fun j hj => by rw [hSame j hj]⟩
  | true =>
    -- Then `u` would be the greater one.
    rw [hu, Bool.true_xor] at hk
    have hMore := Nat.lt_of_testBit k (by simpa using hk) hu fun j hj => (hSame j hj).symm
    omega

/-! ## Filling from below -/

/-- `v` is `w` with further bits, each of which lies under every bit that is clear in `v`. -/
structure FilledUp (w v : UInt32) : Prop where
  kept : burntBits w ⊆ burntBits v
  below : ∀ i ∈ burntBits v, i ∉ burntBits w → ∀ j < fuseWidth, j ∉ burntBits v → i < j

namespace FilledUp

theorem refl (w : UInt32) : FilledUp w w :=
  ⟨Finset.Subset.refl _, fun _ hi hNot => absurd hi hNot⟩

theorem trans (h : FilledUp w u) (h' : FilledUp u v) : FilledUp w v := by
  refine ⟨h.kept.trans h'.kept, fun i hi hAdded j hj hClear => ?_⟩
  by_cases hBit : i ∈ burntBits u
  · exact h.below i hBit hAdded j hj fun hSet => hClear (h'.kept hSet)
  · exact h'.below i hi hBit j hj hClear

/-- No word that keeps the same bits and has as many is smaller. -/
theorem le (h : FilledUp w u) (hKept : w &&& v = w) (hCount : bitCount u ≤ bitCount v) : u ≤ v := by
  by_contra hLess
  obtain ⟨k, hClear, hSet, hAbove⟩ := exists_highest_difference (UInt32.not_le.1 hLess)
  have hAdded : k ∉ burntBits w := fun hBit => hClear (burntBits_subset_iff.2 hKept hBit)
  -- Up to `k` all bits of `u` are set, and above `k` the two words agree.
  have hSubset : burntBits v ⊆ burntBits u := by
    intro j hj
    by_cases hUp : k < j
    · exact (hAbove j hUp).1 hj
    · by_contra hNot
      have hWidth := Finset.mem_range.1 (burntBits_subset_range v hj)
      have hBelow := h.below k hSet hAdded j hWidth hNot
      omega
  have hFewer : (burntBits v).card < (burntBits u).card :=
    Finset.card_lt_card (Finset.ssubset_iff_of_subset hSubset |>.2 ⟨k, hSet, hClear⟩)
  rw [card_burntBits, card_burntBits] at hFewer
  omega

theorem and_eq (h : FilledUp w v) : w &&& v = w := burntBits_subset_iff.1 h.kept

/-- A word is filled up in one way only. -/
theorem eq_of_bitCount_eq (hu : FilledUp w u) (hv : FilledUp w v) (h : bitCount u = bitCount v) :
    u = v :=
  UInt32.le_antisymm (hu.le hv.and_eq (by omega)) (hv.le hu.and_eq (by omega))

end FilledUp

/-- A word without a clear bit stays as it is. -/
theorem setLowestClear_of_full (h : fuseWidth ≤ bitCount w) : setLowestClear w = w :=
  (eq_of_and_eq_of_bitCount_le (and_setLowestClear w)
    ((bitCount_le_fuseWidth _).trans h)).symm

theorem filledUp_setLowestClear (w : UInt32) : FilledUp w (setLowestClear w) := by
  by_cases hRoom : bitCount w < fuseWidth
  · obtain ⟨k, hk, hLowest⟩ := exists_lowestClear hRoom
    have hBits := burntBits_setLowestClear hk hLowest
    refine ⟨hBits ▸ Finset.subset_insert _ _, fun i hi hAdded j _ hClear => ?_⟩
    rw [hBits, Finset.mem_insert] at hi hClear
    obtain rfl : i = k := hi.resolve_right hAdded
    by_contra hNot
    have hUnder : j < i := by
      have hOther : j ≠ i := fun h => hClear (.inl h)
      omega
    exact hClear (.inr (hLowest.below j hUnder))
  · rw [setLowestClear_of_full (by omega)]
    exact .refl w

theorem filledUp_setLowestClears (n : Nat) (w : UInt32) : FilledUp w (setLowestClears n w) := by
  induction n generalizing w with
  | zero => exact .refl w
  | succ n ih => exact (filledUp_setLowestClear w).trans (ih _)

/-! ## The loop -/

/-- The loop that sets the lowest clear bit as long as the version is not recorded, from the word it
starts with to the word it ends with. -/
inductive Filling (version : FirmwareVersion) : UInt32 → UInt32 → Prop
  | done {w : UInt32} : version.isRecordedBy w → Filling version w w
  | round {w u : UInt32} : ¬ version.isRecordedBy w → Filling version (setLowestClear w) u →
      Filling version w u

namespace FirmwareVersion

theorem isRecordedBy_iff : version.isRecordedBy w ↔ version.number ≤ bitCount w := by
  simp [isRecordedBy]

/-- One round leaves the word that is reached as it was. -/
theorem advance_setLowestClear (h : ¬ version.isRecordedBy w) :
    version.advance (setLowestClear w) = version.advance w := by
  rw [isRecordedBy_iff] at h
  have hVersion := version.number_le
  have hRounds :
      version.number - bitCount w = version.number - bitCount (setLowestClear w) + 1 := by
    rw [bitCount_setLowestClear (by omega)]
    omega
  unfold advance
  rw [hRounds, setLowestClears]

/-- The loop ends, whatever the word, and it ends with the word that the version is recorded in. -/
theorem filling_iff : Filling version w u ↔ u = version.advance w := by
  constructor
  · intro hFilling
    induction hFilling with
    | done hRecorded => exact (advance_of_isRecordedBy hRecorded).symm
    | round hOpen _ ih => rw [ih, advance_setLowestClear hOpen]
  · rintro rfl
    -- Each round sets one of the bits that are missing.
    generalize hMissing : version.number - bitCount w = missing
    induction missing generalizing w with
    | zero =>
      have hRecorded : version.isRecordedBy w := isRecordedBy_iff.2 (by omega)
      rw [advance_of_isRecordedBy hRecorded]
      exact .done hRecorded
    | succ n ih =>
      have hNot : ¬ version.isRecordedBy w := by
        rw [isRecordedBy_iff]
        omega
      have hVersion := version.number_le
      have hCount := bitCount_setLowestClear (w := w) (by omega)
      rw [← advance_setLowestClear hNot]
      exact .round hNot (ih (by omega))

/-! ## Words that record a version -/

theorem filledUp_advance (version : FirmwareVersion) (w : UInt32) :
    FilledUp w (version.advance w) :=
  filledUp_setLowestClears _ w

theorem burntBits_pattern (version : FirmwareVersion) :
    burntBits version.pattern = Finset.range version.number := by
  have hVersion := version.number_le
  have hPow : 2 ^ version.number ≤ 2 ^ 32 := Nat.pow_le_pow_right (by decide) hVersion
  have hPos := Nat.two_pow_pos version.number
  ext i
  unfold pattern
  rw [mem_burntBits, UInt32.toNat_ofNat', Nat.one_shiftLeft, Nat.mod_eq_of_lt (by omega),
    Nat.testBit_two_pow_sub_one, Finset.mem_range, decide_eq_true_iff]

theorem bitCount_pattern (version : FirmwareVersion) :
    bitCount version.pattern = version.number := by
  rw [← card_burntBits, burntBits_pattern, Finset.card_range]

theorem filledUp_pattern (h : lower.number ≤ version.number) :
    FilledUp lower.pattern version.pattern := by
  refine ⟨?_, fun i hi _ j _ hClear => ?_⟩
  · rw [burntBits_pattern, burntBits_pattern]
    exact Finset.range_subset_range.2 h
  · rw [burntBits_pattern, Finset.mem_range] at hi hClear
    omega

theorem advance_eq_self_iff : version.advance w = w ↔ version.isRecordedBy w := by
  constructor
  · intro h
    have hCount := version.bitCount_advance w
    rw [h] at hCount
    rw [isRecordedBy_iff]
    omega
  · exact advance_of_isRecordedBy

/-- A unary word stays unary. -/
theorem advance_pattern (h : lower.number ≤ version.number) :
    version.advance lower.pattern = version.pattern := by
  refine (filledUp_advance version _).eq_of_bitCount_eq (filledUp_pattern h) ?_
  rw [bitCount_advance, bitCount_pattern, bitCount_pattern]
  omega

theorem advance_advance (h : lower.number ≤ version.number) (w : UInt32) :
    version.advance (lower.advance w) = version.advance w := by
  refine ((filledUp_advance lower w).trans (filledUp_advance version _)).eq_of_bitCount_eq
    (filledUp_advance version w) ?_
  simp only [bitCount_advance]
  omega

/-- Recording a version takes the lowest clear bits of the word and no more of them than it needs.
The loop that sets them ends, the word is the least that keeps the old bits and has as many, it is
the old word exactly if that records the version, a unary word is advanced to a unary word, and a
stop at a lower version makes no difference. -/
theorem advance_fills_from_below (version : FirmwareVersion) (w : UInt32) :
    (∀ u, Filling version w u ↔ u = version.advance w) ∧
    w &&& version.advance w = w ∧
    bitCount (version.advance w) = max (bitCount w) version.number ∧
    (∀ i ∈ burntBits (version.advance w), i ∉ burntBits w →
      ∀ j < fuseWidth, j ∉ burntBits (version.advance w) → i < j) ∧
    (∀ v, w &&& v = w → bitCount v = max (bitCount w) version.number → version.advance w ≤ v) ∧
    (version.advance w = w ↔ version.isRecordedBy w) ∧
    (∀ lower : FirmwareVersion, lower.number ≤ version.number → w = lower.pattern →
      version.advance w = version.pattern) ∧
    ∀ lower : FirmwareVersion, lower.number ≤ version.number →
      version.advance (lower.advance w) = version.advance w := by
  have hFilled := filledUp_advance version w
  refine ⟨fun _ => filling_iff, hFilled.and_eq, bitCount_advance version w, hFilled.below,
    fun v hKept hCount => ?_, advance_eq_self_iff, ?_, fun lower h => advance_advance h w⟩
  · refine hFilled.le hKept ?_
    rw [hCount, bitCount_advance]
  · rintro lower h rfl
    exact advance_pattern h

/-- The highest bit is burnt already; the others are filled in from below, in two steps as in
one. -/
theorem high_bit_filled_in_two_steps :
    advance ⟨3, by decide⟩ (advance ⟨2, by decide⟩ 0x80000000) = 0x80000003 := by
  obtain ⟨-, -, -, -, -, -, -, hSteps⟩ := advance_fills_from_below ⟨3, by decide⟩ 0x80000000
  rw [hSteps ⟨2, by decide⟩ (by decide)]
  decide +kernel

end FirmwareVersion

end BootStage
