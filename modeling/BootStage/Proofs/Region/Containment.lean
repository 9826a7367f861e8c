import BootStage.Layout
import BootStage.Proofs.Region

/-!
# Comparisons of regions, by the addresses in them

Each comparison of regions guards against overflow in a way of its own: the end of a region may be
no address, a last byte is cut at the top of the address space or is none at all, and the distance
from the base of DRAM is taken only from its base on.  All of them agree with `Region.contains`,
address by address.

    r.overlaps s ↔ some address is in both                           (overlaps_iff_contains)
    r.containsRange base size ↔ r has an end, the range does not run past 2 ^ 64,
      and every address of it is in r                                (containsRange_iff_contains)
    l.isDramAddress a = (all of DRAM as a region).contains a         (isDramAddress_eq_contains)
-/

namespace BootStage

namespace Region

theorem Covers.lt_top {r : Region} {a : Nat} (h : r.Covers a) : a < 2 ^ 64 := h.2.2

theorem contains_ofNat {r : Region} {a : Nat} (h : r.Covers a) : r.contains (UInt64.ofNat a) := by
  rw [contains_iff_covers, UInt64.toNat_ofNat_of_lt' h.lt_top]
  exact h

theorem overlaps_iff_contains (r s : Region) :
    r.overlaps s ↔ ∃ a, r.contains a ∧ s.contains a := by
  rw [overlaps_iff]
  constructor
  · rintro ⟨a, hr, hs⟩
    exact ⟨UInt64.ofNat a, contains_ofNat hr, contains_ofNat hs⟩
  · rintro ⟨a, hr, hs⟩
    exact ⟨a.toNat, (contains_iff_covers r a).1 hr, (contains_iff_covers s a).1 hs⟩

/-- The addresses of a range are all there are between its bounds, if it does not run past the top. -/
theorem containsRange_iff_contains {r : Region} {base size : UInt64} (hSize : size ≠ 0) :
    r.containsRange base size ↔ r.limit?.isSome ∧ base.toNat + size.toNat ≤ 2 ^ 64 ∧
      ∀ a : UInt64, base ≤ a → a.toNat < base.toNat + size.toNat → r.contains a := by
  rw [containsRange_iff hSize]
  constructor
  · rintro ⟨hEnd, hCovers⟩
    have hPos : size.toNat ≠ 0 := fun hZero => hSize (UInt64.toNat_inj.1 hZero)
    have hLast := (hCovers (base.toNat + size.toNat - 1) (by omega) (by omega)).lt_top
    refine ⟨hEnd, by omega, fun a hBase hIn => ?_⟩
    exact (contains_iff_covers r a).2 (hCovers a.toNat (UInt64.le_iff_toNat_le.1 hBase) hIn)
  · rintro ⟨hEnd, hTop, hContains⟩
    refine ⟨hEnd, fun a hBase hIn => ?_⟩
    have hAddress : (UInt64.ofNat a).toNat = a :=
      UInt64.toNat_ofNat_of_lt' (show a < 2 ^ 64 by omega)
    have hCovers := (contains_iff_covers r (UInt64.ofNat a)).1
      (hContains (UInt64.ofNat a) (by rw [UInt64.le_iff_toNat_le]; omega) (by omega))
    rwa [hAddress] at hCovers

end Region

/-- The distance from the base decides the same as the end would, also where there is no end. -/
theorem Layout.isDramAddress_eq_contains (l : Layout) (address : UInt64) :
    l.isDramAddress address = (Region.window l.dramBase l.dramMaxSize).contains address := by
  rw [Bool.eq_iff_iff, Region.contains_iff_covers]
  have hAddress : address.toNat < 2 ^ 64 := address.toNat_lt
  unfold Layout.isDramAddress Region.Covers
  simp only [Bool.and_eq_true, decide_eq_true_eq, Region.window]
  constructor
  · rintro ⟨hBase, hIn⟩
    rw [UInt64.lt_iff_toNat_lt, UInt64.toNat_sub_of_le _ _ hBase] at hIn
    rw [UInt64.le_iff_toNat_le] at hBase
    omega
  · rintro ⟨hBase, hIn, -⟩
    have hLe : l.dramBase ≤ address := UInt64.le_iff_toNat_le.2 hBase
    refine ⟨hLe, ?_⟩
    rw [UInt64.lt_iff_toNat_lt, UInt64.toNat_sub_of_le _ _ hLe]
    omega

namespace Region

/-- Regions overlap exactly if an address is in both, whichever comes first.  A range of at least one
byte is contained exactly if the region has an end, the range does not run past the top of the address
space, and every address of the range is in the region.  The addresses of DRAM are those in the region
of its base and largest size.  No region is excepted: it may be empty, wrap, or end at the top. -/
theorem comparisons_agree_with_contains (r s : Region) :
    (r.overlaps s ↔ ∃ a, r.contains a ∧ s.contains a) ∧
    r.overlaps s = s.overlaps r ∧
    (∀ base size : UInt64, size ≠ 0 →
      (r.containsRange base size ↔ r.limit?.isSome ∧ base.toNat + size.toNat ≤ 2 ^ 64 ∧
        ∀ a : UInt64, base ≤ a → a.toNat < base.toNat + size.toNat → r.contains a)) ∧
    ∀ (l : Layout) (address : UInt64),
      l.isDramAddress address = (window l.dramBase l.dramMaxSize).contains address := by
  refine ⟨overlaps_iff_contains r s, overlaps_comm r s, ?_, Layout.isDramAddress_eq_contains⟩
  intro base size hSize
  exact containsRange_iff_contains hSize

/-- The last page of the address space ends where no address is.  It overlaps what wraps around behind
it, and although every address of it is in it, it does not contain itself as a range. -/
theorem lastPage_agrees_with_contains :
    let page := window 0xFFFFFFFFFFFFF000 0x1000
    (∃ a, page.contains a ∧ (window 0xFFFFFFFFFFFFFFFF 0x10).contains a) ∧
      page.size ≠ 0 ∧
      ¬ (page.limit?.isSome ∧ page.base.toNat + page.size.toNat ≤ 2 ^ 64 ∧
        ∀ a : UInt64, page.base ≤ a → a.toNat < page.base.toNat + page.size.toNat →
          page.contains a) := by
  intro page
  have hAgree := comparisons_agree_with_contains page (window 0xFFFFFFFFFFFFFFFF 0x10)
  have hSize : page.size ≠ 0 := by decide
  refine ⟨hAgree.1.1 (by decide), hSize, ?_⟩
  rw [← hAgree.2.2.1 page.base page.size hSize]
  decide

end Region

end BootStage
