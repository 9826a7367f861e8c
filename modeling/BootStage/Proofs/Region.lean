import Mathlib.Algebra.Group.Nat.Defs
import BootStage.Region

/-!
# Regions as sets of addresses

What the comparisons of base, size, end and last byte say about the addresses that regions cover,
for every base and size, also where a region would run past the top of the address space.

    r.overlaps s ↔ ∃ a, r.Covers a ∧ s.Covers a                      (overlaps_iff)
    r.containsRange base size ↔ r has an end and covers the range    (containsRange_iff)
-/

namespace BootStage.Region

theorem toNat_add_of_lt {a b : UInt64} (h : a.toNat + b.toNat < 2 ^ 64) :
    (a + b).toNat = a.toNat + b.toNat := by
  rw [UInt64.toNat_add]
  omega

theorem toNat_sub_one {n : UInt64} (h : n ≠ 0) : (n - 1).toNat = n.toNat - 1 := by
  have hPos : n.toNat ≠ 0 := fun hZero => h (UInt64.toNat_inj.1 hZero)
  have hOne : (1 : UInt64).toNat = 1 := rfl
  rw [UInt64.toNat_sub_of_le n 1 (UInt64.le_iff_toNat_le.2 (by omega)), hOne]

theorem limit?_eq_some_iff (r : Region) (limit : UInt64) :
    r.limit? = some limit ↔ r.base.toNat + r.size.toNat = limit.toNat := by
  have hLimit := limit.toNat_lt
  unfold limit?
  by_cases hEnd : r.base.toNat + r.size.toNat < 0x10000000000000000
  · rw [if_pos hEnd, Option.some_inj, ← UInt64.toNat_inj, toNat_add_of_lt hEnd]
  · rw [if_neg hEnd]
    simp only [reduceCtorEq, false_iff]
    omega

theorem limit?_isSome_iff (r : Region) :
    r.limit?.isSome ↔ r.base.toNat + r.size.toNat < 2 ^ 64 := by
  unfold limit?
  split <;> simp_all

theorem isValid_iff {r : Region} :
    r.isValid = true ↔ 0 < r.size.toNat ∧ r.base.toNat + r.size.toNat < 2 ^ 64 := by
  have hZero : r.size = 0 ↔ r.size.toNat = 0 := UInt64.toNat_inj.symm
  unfold isValid
  rw [Bool.and_eq_true, limit?_isSome_iff, bne_iff_ne, ne_eq, hZero]
  omega

theorem lastOf?_eq_some_iff {base size : UInt64} (h : size ≠ 0) (last : UInt64) :
    lastOf? base size = some last ↔ base.toNat + size.toNat = last.toNat + 1 := by
  have hPos : size.toNat ≠ 0 := fun hZero => h (UInt64.toNat_inj.1 hZero)
  have hLast := last.toNat_lt
  have hPred := toNat_sub_one h
  unfold lastOf?
  by_cases hEnd : base.toNat + (size.toNat - 1) < 0x10000000000000000
  · rw [if_pos hEnd, Option.some_inj, ← UInt64.toNat_inj, toNat_add_of_lt (by omega)]
    omega
  · rw [if_neg hEnd]
    simp only [reduceCtorEq, false_iff]
    omega

/-- The last byte is where the region ends, or the top of the address space if that comes first. -/
theorem toNat_lastByte {r : Region} (h : r.size ≠ 0) :
    r.lastByte.toNat = min (r.base.toNat + r.size.toNat - 1) (2 ^ 64 - 1) := by
  unfold lastByte
  cases hLast : lastOf? r.base r.size with
  | some last =>
    rw [lastOf?_eq_some_iff h] at hLast
    have := last.toNat_lt
    show last.toNat = _
    omega
  | none =>
    have hPast : ¬ r.base.toNat + (r.size.toNat - 1) < 0x10000000000000000 := by
      intro hEnd
      unfold lastOf? at hLast
      rw [if_pos hEnd] at hLast
      cases hLast
    show (0xFFFFFFFFFFFFFFFF : UInt64).toNat = _
    have hTop : (0xFFFFFFFFFFFFFFFF : UInt64).toNat = 2 ^ 64 - 1 := rfl
    omega

theorem not_covers_of_size_eq_zero {r : Region} (h : r.size = 0) (a : Nat) : ¬ r.Covers a := by
  have hZero : r.size.toNat = 0 := by rw [h]; rfl
  unfold Covers
  omega

/-- Two regions overlap exactly if they share an address. -/
theorem overlaps_iff (r s : Region) : r.overlaps s ↔ ∃ a, r.Covers a ∧ s.Covers a := by
  unfold overlaps
  by_cases hEmpty : r.size = 0 ∨ s.size = 0
  · rw [if_pos hEmpty]
    constructor
    · intro h
      cases h
    · rintro ⟨a, hr, hs⟩
      rcases hEmpty with h | h
      · exact absurd hr (not_covers_of_size_eq_zero h a)
      · exact absurd hs (not_covers_of_size_eq_zero h a)
  · rw [if_neg hEmpty]
    obtain ⟨hr, hs⟩ := not_or.1 hEmpty
    have hrPos : r.size.toNat ≠ 0 := fun hZero => hr (UInt64.toNat_inj.1 hZero)
    have hsPos : s.size.toNat ≠ 0 := fun hZero => hs (UInt64.toNat_inj.1 hZero)
    have hrBase := r.base.toNat_lt
    have hsBase := s.base.toNat_lt
    simp only [Bool.and_eq_true, decide_eq_true_eq, UInt64.le_iff_toNat_le, toNat_lastByte hr,
      toNat_lastByte hs]
    constructor
    · rintro ⟨h₁, h₂⟩
      -- the larger base is in both
      refine ⟨max r.base.toNat s.base.toNat, ?_, ?_⟩ <;> unfold Covers <;> omega
    · rintro ⟨a, ha, hb⟩
      unfold Covers at ha hb
      omega

/-- The regions have no address in common. -/
def Apart (r s : Region) : Prop := ∀ a, r.Covers a → ¬ s.Covers a

theorem not_overlaps_iff (r s : Region) : r.overlaps s = false ↔ r.Apart s := by
  rw [← Bool.not_eq_true, overlaps_iff]
  constructor
  · intro h a hr hs
    exact h ⟨a, hr, hs⟩
  · rintro h ⟨a, hr, hs⟩
    exact h a hr hs

/-- The window covers all bytes of the region, none of which lies past the top of the address space. -/
def Within (r window : Region) : Prop :=
  ∀ a, r.base.toNat ≤ a → a < r.base.toNat + r.size.toNat → window.Covers a

theorem within_of_size_eq_zero {r : Region} (h : r.size = 0) (window : Region) : r.Within window := by
  intro a hBase hEnd
  have hZero : r.size.toNat = 0 := by rw [h]; rfl
  omega

theorem containsRange_iff_bounds {r : Region} {base size : UInt64} (h : size ≠ 0) :
    r.containsRange base size ↔ r.base.toNat + r.size.toNat < 2 ^ 64 ∧
      r.base.toNat ≤ base.toNat ∧ base.toNat + size.toNat ≤ r.base.toNat + r.size.toNat := by
  have hPos : size.toNat ≠ 0 := fun hZero => h (UInt64.toNat_inj.1 hZero)
  unfold containsRange
  rw [if_neg h]
  cases hLast : lastOf? base size with
  | none =>
    simp only [Bool.false_eq_true, false_iff]
    rintro ⟨hEnd, -, hIn⟩
    unfold lastOf? at hLast
    rw [if_pos (by omega)] at hLast
    cases hLast
  | some last =>
    rw [lastOf?_eq_some_iff h] at hLast
    cases hLimit : r.limit? with
    | none =>
      simp only [Bool.false_eq_true, false_iff]
      rintro ⟨hEnd, -, -⟩
      rw [← limit?_isSome_iff, hLimit] at hEnd
      cases hEnd
    | some limit =>
      rw [limit?_eq_some_iff] at hLimit
      have := limit.toNat_lt
      simp only [Bool.and_eq_true, decide_eq_true_eq, UInt64.le_iff_toNat_le,
        UInt64.lt_iff_toNat_lt]
      omega

/-- A region with an end contains a non-empty range exactly if it covers all of it. -/
theorem containsRange_iff {r : Region} {base size : UInt64} (h : size ≠ 0) :
    r.containsRange base size ↔ r.limit?.isSome ∧
      ∀ a, base.toNat ≤ a → a < base.toNat + size.toNat → r.Covers a := by
  have hPos : size.toNat ≠ 0 := fun hZero => h (UInt64.toNat_inj.1 hZero)
  rw [containsRange_iff_bounds h, limit?_isSome_iff]
  constructor
  · rintro ⟨hEnd, hBase, hIn⟩
    refine ⟨hEnd, fun a ha hb => ?_⟩
    unfold Covers
    omega
  · rintro ⟨hEnd, hCovers⟩
    have hFirst := hCovers base.toNat (by omega) (by omega)
    have hLast := hCovers (base.toNat + size.toNat - 1) (by omega) (by omega)
    unfold Covers at hFirst hLast
    omega

/-! ## Regions that grow -/

/-- The region with `extra` more bytes behind it. -/
def grown (r : Region) (extra : UInt64) : Region := { r with size := r.size + extra }

section Grown

variable {r : Region} {extra : UInt64}

@[simp]
theorem grown_base : (r.grown extra).base = r.base := rfl

theorem toNat_grown_size (hFits : r.size.toNat + extra.toNat < 2 ^ 64) :
    (r.grown extra).size.toNat = r.size.toNat + extra.toNat :=
  toNat_add_of_lt hFits

/-- That the sizes add up is not enough for a region that grew: its end has to be an address too. -/
theorem isValid_grown_iff (hValid : r.isValid = true)
    (hFits : r.size.toNat + extra.toNat < 2 ^ 64) :
    (r.grown extra).isValid = true ↔
      r.base.toNat + (r.size.toNat + extra.toNat) < 2 ^ 64 := by
  have hPos : 0 < r.size.toNat := (isValid_iff.1 hValid).1
  rw [isValid_iff, toNat_grown_size hFits, grown_base]
  omega

theorem covers_base_grown (hValid : r.isValid = true)
    (hFits : r.size.toNat + extra.toNat < 2 ^ 64) : (r.grown extra).Covers r.base.toNat := by
  have hPos : 0 < r.size.toNat := (isValid_iff.1 hValid).1
  have hBase : r.base.toNat < 2 ^ 64 := r.base.toNat_lt
  unfold Covers
  rw [toNat_grown_size hFits, grown_base]
  omega

end Grown

end BootStage.Region
