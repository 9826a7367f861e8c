import Mathlib.Algebra.Group.Nat.Defs
import Mathlib.Data.Finset.Card
import Mathlib.Data.Nat.Find
import BootStage.Version

/-!
# Fuse words as sets of bits

A fuse word is the set of its bits that are burnt (`burntBits`).  The version that it records is the
size of that set, and a word that keeps all bits of another one is a superset of it.

    bitCount (v.advance w) = max (bitCount w) v.number               (bitCount_advance)
    w &&& v.advance w = w                                            (and_advance)

Both come from one step: the lowest clear bit is the only one that is added
(`burntBits_setLowestClear`).
-/

namespace BootStage

/-- Positions of the bits that are set. -/
def burntBits (w : UInt32) : Finset Nat := (Finset.range fuseWidth).filter fun i => w.toNat.testBit i

variable {w v : UInt32} {i k : Nat}

theorem mem_burntBits : i ∈ burntBits w ↔ w.toNat.testBit i = true := by
  unfold burntBits
  rw [Finset.mem_filter, Finset.mem_range, and_iff_right_iff_imp]
  intro hBit
  by_contra hHigh
  have hWord := w.toNat_lt
  have hPow : 2 ^ 32 ≤ 2 ^ i := Nat.pow_le_pow_right (by decide) (Nat.le_of_not_lt hHigh)
  rw [Nat.testBit_lt_two_pow (by omega)] at hBit
  cases hBit

theorem card_burntBits (w : UInt32) : (burntBits w).card = bitCount w := by
  unfold burntBits bitCount
  rw [Finset.card, Finset.filter_val, Finset.range_val, Multiset.range, Multiset.filter_coe,
    Multiset.coe_card, List.countP_eq_length_filter]
  simp

theorem burntBits_subset_range (w : UInt32) : burntBits w ⊆ Finset.range fuseWidth :=
  Finset.filter_subset _ _

theorem bitCount_le_fuseWidth (w : UInt32) : bitCount w ≤ fuseWidth := by
  rw [← card_burntBits, ← Finset.card_range fuseWidth]
  exact Finset.card_le_card (burntBits_subset_range w)

theorem eq_of_burntBits_eq (h : burntBits w = burntBits v) : w = v := by
  refine UInt32.toNat_inj.1 (Nat.eq_of_testBit_eq fun i => Bool.eq_iff_iff.2 ?_)
  rw [← mem_burntBits, ← mem_burntBits, h]

theorem burntBits_or (w v : UInt32) : burntBits (w ||| v) = burntBits w ∪ burntBits v := by
  ext i
  rw [Finset.mem_union, mem_burntBits, mem_burntBits, mem_burntBits, UInt32.toNat_or,
    Nat.testBit_or, Bool.or_eq_true]

theorem burntBits_and (w v : UInt32) : burntBits (w &&& v) = burntBits w ∩ burntBits v := by
  ext i
  rw [Finset.mem_inter, mem_burntBits, mem_burntBits, mem_burntBits, UInt32.toNat_and,
    Nat.testBit_and, Bool.and_eq_true]

/-- A word keeps all bits of another one. -/
theorem burntBits_subset_iff : burntBits w ⊆ burntBits v ↔ w &&& v = w := by
  rw [← Finset.inter_eq_left, ← burntBits_and]
  exact ⟨eq_of_burntBits_eq, congrArg burntBits⟩

theorem eq_of_and_eq_of_bitCount_le (h : w &&& v = w) (hCount : bitCount v ≤ bitCount w) :
    w = v := by
  rw [← card_burntBits, ← card_burntBits] at hCount
  exact eq_of_burntBits_eq (Finset.eq_of_subset_of_card_le (burntBits_subset_iff.2 h) hCount)

/-! ## The lowest clear bit -/

/-- All bits below `k` are burnt, and `k` is not. -/
structure LowestClear (w : UInt32) (k : Nat) : Prop where
  clear : k ∉ burntBits w
  below : ∀ i < k, i ∈ burntBits w

/-- The burnt bits below the lowest clear one vanish when one is added. -/
theorem LowestClear.eq_two_pow (h : LowestClear w k) :
    w.toNat + 1 = 2 ^ (k + 1) * (w.toNat / 2 ^ (k + 1)) + 2 ^ k := by
  have hLow : w.toNat % 2 ^ (k + 1) = 2 ^ k - 1 := by
    refine Nat.eq_of_testBit_eq fun i => ?_
    rw [Nat.testBit_mod_two_pow, Nat.testBit_two_pow_sub_one]
    rcases Nat.lt_trichotomy i k with hi | rfl | hi
    · simp [mem_burntBits.1 (h.below i hi), hi, Nat.lt_succ_of_lt hi]
    · simp [Bool.eq_false_iff.2 fun hBit => h.clear (mem_burntBits.2 hBit)]
    · simp [Nat.not_lt.2 hi, Nat.not_lt_of_gt hi]
  have hPos := Nat.two_pow_pos k
  have hSplit := Nat.div_add_mod w.toNat (2 ^ (k + 1))
  omega

theorem exists_lowestClear (h : bitCount w < fuseWidth) : ∃ k < fuseWidth, LowestClear w k := by
  have hExists : ∃ k, k ∉ burntBits w := ⟨fuseWidth, fun hMem =>
    absurd (Finset.mem_range.1 (burntBits_subset_range w hMem)) (Nat.lt_irrefl _)⟩
  refine ⟨Nat.find hExists, ?_, Nat.find_spec hExists, fun i hi => not_not.1 (Nat.find_min hExists hi)⟩
  by_contra hHigh
  have hAll : Finset.range fuseWidth ⊆ burntBits w := fun i hi =>
    not_not.1 (Nat.find_min hExists (Nat.lt_of_lt_of_le (Finset.mem_range.1 hi) (Nat.not_lt.1 hHigh)))
  have hCard := Finset.card_le_card hAll
  rw [Finset.card_range, card_burntBits] at hCard
  omega

/-- Adding one to a word sets its lowest clear bit, clears those below, and leaves those above. -/
theorem LowestClear.testBit_succ (h : LowestClear w k) (i : Nat) :
    (w.toNat + 1).testBit i = if i ≤ k then decide (i = k) else w.toNat.testBit i := by
  have hLess : 2 ^ k < 2 ^ (k + 1) := Nat.pow_lt_pow_right (by decide) (Nat.lt_succ_self k)
  rw [h.eq_two_pow, Nat.testBit_two_pow_mul_add _ hLess]
  by_cases hi : i ≤ k
  · rw [if_pos (Nat.lt_succ_of_le hi), if_pos hi, Nat.testBit_two_pow]
    exact decide_eq_decide.2 eq_comm
  · rw [if_neg (by omega), if_neg hi, Nat.testBit_div_two_pow, Nat.sub_add_cancel (by omega)]

theorem burntBits_setLowestClear (hk : k < fuseWidth) (h : LowestClear w k) :
    burntBits (setLowestClear w) = insert k (burntBits w) := by
  unfold fuseWidth at hk
  have hOne : (1 : UInt32).toNat = 1 := rfl
  have hNot : (~~~w).toNat = 2 ^ 32 - (w.toNat + 1) := by
    have hSize : UInt32.size = 2 ^ 32 := rfl
    rw [UInt32.toNat_not]
    omega
  ext i
  unfold setLowestClear
  rw [burntBits_or, burntBits_and, Finset.mem_union, Finset.mem_inter, Finset.mem_insert,
    mem_burntBits (w := ~~~w), mem_burntBits (w := w + 1), hNot,
    Nat.testBit_two_pow_sub_succ w.toNat_lt, UInt32.toNat_add, hOne, Nat.testBit_mod_two_pow,
    h.testBit_succ, ← Bool.and_eq_true]
  by_cases hBit : i ∈ burntBits w
  · simp [hBit]
  · have hClear : w.toNat.testBit i = false := Bool.eq_false_iff.2 fun hSet =>
      hBit (mem_burntBits.2 hSet)
    rw [hClear]
    -- A clear bit is not below `k`, and above `k` nothing is added.
    have hAbove : k ≤ i := Nat.not_lt.1 fun hi => hBit (h.below i hi)
    by_cases hSame : i = k
    · simp [hSame, hk]
    · simp [hBit, hSame, show ¬ i ≤ k by omega]

theorem and_setLowestClear (w : UInt32) : w &&& setLowestClear w = w := by
  rw [← burntBits_subset_iff]
  unfold setLowestClear
  rw [burntBits_or]
  exact Finset.subset_union_left

theorem bitCount_setLowestClear (h : bitCount w < fuseWidth) :
    bitCount (setLowestClear w) = bitCount w + 1 := by
  obtain ⟨k, hk, hLowest⟩ := exists_lowestClear h
  rw [← card_burntBits, burntBits_setLowestClear hk hLowest,
    Finset.card_insert_of_notMem hLowest.clear, card_burntBits]

theorem and_setLowestClears (n : Nat) (w : UInt32) : w &&& setLowestClears n w = w := by
  induction n generalizing w with
  | zero => exact UInt32.and_self
  | succ n ih =>
    rw [← burntBits_subset_iff]
    exact (burntBits_subset_iff.2 (and_setLowestClear w)).trans (burntBits_subset_iff.2 (ih _))

theorem bitCount_setLowestClears {n : Nat} (h : bitCount w + n ≤ fuseWidth) :
    bitCount (setLowestClears n w) = bitCount w + n := by
  induction n generalizing w with
  | zero => rfl
  | succ n ih =>
    have hOne := bitCount_setLowestClear (w := w) (by omega)
    rw [setLowestClears, ih (by omega), hOne]
    omega

namespace FirmwareVersion

/-- Advancing a word keeps the bits that are burnt. -/
theorem and_advance (version : FirmwareVersion) (w : UInt32) : w &&& version.advance w = w :=
  and_setLowestClears _ w

/-- Advancing a word burns just enough bits for the version. -/
theorem bitCount_advance (version : FirmwareVersion) (w : UInt32) :
    bitCount (version.advance w) = max (bitCount w) version.number := by
  have hWord := bitCount_le_fuseWidth w
  have hVersion := version.number_le
  rw [advance, bitCount_setLowestClears (by omega)]
  omega

end FirmwareVersion

end BootStage
