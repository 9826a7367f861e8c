import BootStage.Proofs.Boards
import BootStage.Proofs.MemoryMap

/-!
# The memory map over time

A `Use` is a call of the map with what it asked of the memory management unit and what it answered;
`Uses m uses q` says that these calls, one after the other, take the map `m` to `q`.

    a map never forgets a region, and lists those that it took in the order of the calls
                                                                            (Uses.regions_eq)
    at most `capacity` regions, all valid, no two with a common address     (Uses.exclusive)

What a map that was used answers next is therefore settled by what it lists, cause by cause, and so
is what it hands to the unit (`used_map_is_exclusive`).

A region is listed before the unit in use is asked for it.  If the unit rejects it, then it stays
listed although no table holds it, and it cannot be mapped any more; no other failure changes the
map (`failed_addDynamic_keeps_map_unless_rejected`).
-/

namespace BootStage

theorem Region.isValid_eq_false_iff {r : Region} :
    r.isValid = false ↔ r.size = 0 ∨ 2 ^ 64 ≤ r.base.toNat + r.size.toNat := by
  have hZero : r.size = 0 ↔ r.size.toNat = 0 := UInt64.toNat_inj.symm
  rw [← Bool.not_eq_true, isValid_iff, hZero]
  omega

namespace MemoryMap

variable {m m' q : MemoryMap} {r : Region}

/-! ## What a map answers -/

/-- A region that is listed cannot be added again. -/
theorem add_listed (hValid : r.isValid = true) (hListed : r ∈ m.regions) :
    m.add r = .error .regionOverlap := by
  refine add_eq_error_iff.2 (.inr (.inl ⟨hValid, ⟨r, hListed, ?_⟩, rfl⟩))
  obtain ⟨hPos, hEnd⟩ := Region.isValid_iff.1 hValid
  have hBase : r.Covers r.base.toNat := ⟨by omega, by omega, by omega⟩
  exact (Region.overlaps_iff r r).2 ⟨r.base.toNat, hBase, hBase⟩

/-- What a map answers to a region that it is asked to take, answer by answer. -/
structure Answers (m : MemoryMap) (r : Region) : Prop where
  invalid : m.add r = .error .invalidRegion ↔
    r.size = 0 ∨ 2 ^ 64 ≤ r.base.toNat + r.size.toNat
  overlap : m.add r = .error .regionOverlap ↔
    r.isValid = true ∧ ∃ s ∈ m.regions, ∃ a, s.Covers a ∧ r.Covers a
  full : m.add r = .error .tableFull ↔
    r.isValid = true ∧ (∀ s ∈ m.regions, s.Apart r) ∧ m.regions.length = capacity
  taken : ∀ m', m.add r = .ok m' ↔
    r.isValid = true ∧ (∀ s ∈ m.regions, s.Apart r) ∧ m.regions.length < capacity ∧
      m' = ⟨m.regions ++ [r]⟩

theorem answers (hRoom : m.regions.length ≤ capacity) (r : Region) : m.Answers r where
  invalid := by
    rw [add_eq_error_iff, ← Region.isValid_eq_false_iff]
    simp
  overlap := by
    simp only [add_eq_error_iff, ← Region.overlaps_iff]
    simp
  full := by
    have hFull : m.regions.length = capacity ↔ capacity ≤ m.regions.length := by omega
    rw [add_eq_error_iff, hFull]
    simp
  taken _ := add_eq_ok_iff

/-! ## Calls -/

/-- A call with what it asked of the unit and what it answered. -/
inductive Use
  | add (region : Region) (result : Except Error Unit)
  | addDynamic (region : Region) (exchanges : List Exchange) (result : Except Error Unit)
  | install (exchanges : List Exchange) (result : Except DriverFault Unit)

/-- The region that a call put on the list.  A region that the unit rejected is listed as well. -/
def Use.taken? : Use → Option Region
  | .add r (.ok _) => some r
  | .addDynamic r _ (.ok _) => some r
  | .addDynamic r _ (.error .dramMappingFailed) => some r
  | _ => none

/-- The calls, one after the other, take one map to the other. -/
inductive Uses : MemoryMap → List Use → MemoryMap → Prop
  | nil (m : MemoryMap) : Uses m [] m
  | taken {m m' q : MemoryMap} {r : Region} {uses : List Use} : m.add r = .ok m' →
      Uses m' uses q → Uses m (.add r (.ok ()) :: uses) q
  | refused {m q : MemoryMap} {r : Region} {e : Error} {uses : List Use} : m.add r = .error e →
      Uses m uses q → Uses m (.add r (.error e) :: uses) q
  | addDynamic {m m' q : MemoryMap} {r : Region} {t : List Exchange} {result : Except Error Unit}
      {uses : List Use} : Runs (m.addDynamic r) t (result, m') → Uses m' uses q →
      Uses m (.addDynamic r t result :: uses) q
  | install {m q : MemoryMap} {t : List Exchange} {result : Except DriverFault Unit}
      {uses : List Use} : Runs m.install t result → Uses m uses q →
      Uses m (.install t result :: uses) q

/-- At most `capacity` regions, all of them valid, and no two share an address. -/
structure Exclusive (m : MemoryMap) : Prop where
  room : m.regions.length ≤ capacity
  valid : ∀ r ∈ m.regions, r.isValid = true
  apart : m.regions.Pairwise Region.Apart

theorem exclusive_empty : Exclusive .empty := ⟨Nat.zero_le _, nofun, .nil⟩

theorem Exclusive.add (h : m.Exclusive) (hAdd : m.add r = .ok m') : m'.Exclusive := by
  obtain ⟨hValid, hApart, hRoom, rfl⟩ := add_eq_ok_iff.1 hAdd
  refine ⟨?_, ?_, ?_⟩
  · rw [List.length_append, List.length_singleton]
    exact hRoom
  · exact List.forall_mem_append.2 ⟨h.valid, List.forall_mem_singleton.2 hValid⟩
  · refine List.pairwise_append.2 ⟨h.apart, List.pairwise_singleton _ r, fun s hs s' hs' => ?_⟩
    rw [List.mem_singleton.1 hs']
    exact hApart s hs

namespace Uses

variable {uses : List Use}

/-- A map never forgets a region, and it lists those that it took in the order of the calls. -/
theorem regions_eq (h : Uses m uses q) :
    q.regions = m.regions ++ uses.filterMap Use.taken? := by
  induction h with
  | nil _ => exact (List.append_nil _).symm
  | taken hAdd _ ih =>
    obtain ⟨-, -, -, rfl⟩ := add_eq_ok_iff.1 hAdd
    rw [ih, List.append_assoc]
    rfl
  | refused _ _ ih => exact ih
  | addDynamic hRuns _ ih =>
    cases addsDynamic_of_runs hRuns with
    | refused hAdd =>
      rw [ih]
      rcases causes_of_refused hAdd with rfl | rfl | rfl <;> rfl
    | mapped hAdd =>
      obtain ⟨-, -, -, rfl⟩ := add_eq_ok_iff.1 hAdd
      rw [ih, List.append_assoc]
      rfl
    | rejected fault hAdd =>
      obtain ⟨-, -, -, rfl⟩ := add_eq_ok_iff.1 hAdd
      rw [ih, List.append_assoc]
      rfl
  | install _ _ ih => exact ih

theorem exclusive (h : Uses m uses q) (hm : m.Exclusive) : q.Exclusive := by
  induction h with
  | nil _ => exact hm
  | taken hAdd _ ih => exact ih (hm.add hAdd)
  | refused _ _ ih => exact ih hm
  | addDynamic hRuns _ ih =>
    cases addsDynamic_of_runs hRuns with
    | refused _ => exact ih hm
    | mapped hAdd => exact ih (hm.add hAdd)
    | rejected _ hAdd => exact ih (hm.add hAdd)
  | install _ _ ih => exact ih hm

end Uses

/-- Whatever a map was used for, and however the unit answered: the map is exclusive and lists the
regions that it took in the order of the calls.  From that follows, cause by cause, what it answers
to the next region, and what it hands to the unit. -/
theorem used_map_is_exclusive {uses : List Use} (h : Uses .empty uses m) :
    m.Exclusive ∧ m.regions = uses.filterMap Use.taken? ∧ (∀ r, m.Answers r) ∧
      ∀ t result, Runs m.install t result → HandsOver m.regions t result := by
  have hExclusive := h.exclusive exclusive_empty
  refine ⟨hExclusive, ?_, answers hExclusive.room, fun t result => handsOver_of_runs⟩
  rw [h.regions_eq]
  rfl

/-- Regions that are refused leave no trace; one that the unit rejects does. -/
theorem used_map_lists_two : ∃ m t fault,
    Uses .empty
      [.add (.window 0x1000 0x1000) (.ok ()),
       .add (.window 0x1800 0x1000) (.error .regionOverlap),
       .add (.window 0x3000 0) (.error .invalidRegion),
       .addDynamic (.window 0x2000 0x1000)
         [⟨.mapDynamic (.window 0x2000 0x1000), .error .initFailed⟩] (.error .dramMappingFailed),
       .install t (.error fault)] m ∧
    m.regions = [.window 0x1000 0x1000, .window 0x2000 0x1000] ∧
    m.regions.Pairwise Region.Apart ∧
    m.add (.window 0x2FFF 1) = .error .regionOverlap := by
  have hFirst : MemoryMap.empty.add (.window 0x1000 0x1000) = .ok ⟨[.window 0x1000 0x1000]⟩ := by
    decide
  have hUses : Uses .empty
      [.add (.window 0x1000 0x1000) (.ok ()),
       .add (.window 0x1800 0x1000) (.error .regionOverlap),
       .add (.window 0x3000 0) (.error .invalidRegion),
       .addDynamic (.window 0x2000 0x1000)
         [⟨.mapDynamic (.window 0x2000 0x1000), .error .initFailed⟩] (.error .dramMappingFailed),
       .install [⟨.mapStatic (.window 0x1000 0x1000), .error .timeout⟩] (.error .timeout)]
      ⟨[.window 0x1000 0x1000, .window 0x2000 0x1000]⟩ :=
    .taken hFirst <| .refused (by decide) <| .refused (by decide) <|
      .addDynamic (.call (.done _)) <| .install (.call (.done _)) (.nil _)
  obtain ⟨hExclusive, hRegions, hAnswers, -⟩ := used_map_is_exclusive hUses
  refine ⟨_, _, _, hUses, hRegions, hExclusive.apart, ?_⟩
  refine (hAnswers _).overlap.2 ⟨by decide, .window 0x2000 0x1000, by simp, 0x2FFF, ?_, ?_⟩
  all_goals decide

/-! ## Regions that the unit rejects -/

theorem Uses.mem_regions {uses : List Use} (h : Uses m uses q) (hListed : r ∈ m.regions) :
    r ∈ q.regions := by
  rw [h.regions_eq]
  exact List.mem_append_left _ hListed

/-- A region that is listed already is refused before the unit is asked. -/
theorem AddsDynamic.of_listed {t : List Exchange} {result : Except Error Unit}
    (h : AddsDynamic m r t result m') (hValid : r.isValid = true) (hListed : r ∈ m.regions) :
    t = [] ∧ result = .error .regionOverlap ∧ m' = m := by
  have hRefused := add_listed hValid hListed
  cases h with
  | refused hAdd =>
    rw [hAdd] at hRefused
    cases hRefused
    exact ⟨rfl, rfl, rfl⟩
  | mapped hAdd =>
    rw [hAdd] at hRefused
    cases hRefused
  | rejected _ hAdd =>
    rw [hAdd] at hRefused
    cases hRefused

/-- A call that fails leaves the map as it was unless the unit rejected the region.  A rejected
region is listed from then on, whatever the map is used for, and asking for it again fails without
the unit being asked. -/
theorem failed_addDynamic_keeps_map_unless_rejected {t : List Exchange}
    {result : Except Error Unit} (h : Runs (m.addDynamic r) t (result, m')) :
    (∀ e, result = .error e → (m' = m ↔ e ≠ .dramMappingFailed)) ∧
    (result = .error .dramMappingFailed ↔ ∃ fault, t = [⟨.mapDynamic r, .error fault⟩]) ∧
    (result = .error .dramMappingFailed → m'.regions = m.regions ++ [r] ∧
      ∀ uses q, Uses m' uses q → r ∈ q.regions ∧
        ∀ t' result' q', Runs (q.addDynamic r) t' (result', q') →
          t' = [] ∧ result' = .error .regionOverlap ∧ q' = q) ∧
    (result = .ok () → t = [⟨.mapDynamic r, .ok ()⟩] ∧ m'.regions = m.regions ++ [r]) := by
  cases addsDynamic_of_runs h with
  | refused hAdd =>
    refine ⟨fun e he => ?_, ?_, ?_, nofun⟩
    · cases he
      rcases causes_of_refused hAdd with rfl | rfl | rfl <;> simp
    · rcases causes_of_refused hAdd with rfl | rfl | rfl <;> simp
    · rcases causes_of_refused hAdd with rfl | rfl | rfl <;> nofun
  | mapped hAdd =>
    obtain ⟨-, -, -, rfl⟩ := add_eq_ok_iff.1 hAdd
    exact ⟨nofun, by simp, nofun, fun _ => ⟨rfl, rfl⟩⟩
  | rejected fault hAdd =>
    obtain ⟨hValid, -, -, rfl⟩ := add_eq_ok_iff.1 hAdd
    have hLonger : (⟨m.regions ++ [r]⟩ : MemoryMap) ≠ m := fun hSame => by
      simpa using congrArg (·.regions.length) hSame
    refine ⟨fun e he => ?_, by simp, fun _ => ⟨rfl, fun uses q hUses => ?_⟩, nofun⟩
    · cases he
      simpa using hLonger
    · have hListed := hUses.mem_regions (List.mem_append_right _ List.mem_cons_self)
      exact ⟨hListed, fun t' result' q' hAgain =>
        (addsDynamic_of_runs hAgain).of_listed hValid hListed⟩

/-- The unit rejects the only region that a map was asked for, and the map lists it. -/
theorem rejected_region_listed :
    Runs (MemoryMap.empty.addDynamic (.window 0x3000 1))
      [⟨.mapDynamic (.window 0x3000 1), .error .initFailed⟩]
      (.error .dramMappingFailed, ⟨[.window 0x3000 1]⟩) ∧
    (⟨[.window 0x3000 1]⟩ : MemoryMap).regions ≠ MemoryMap.empty.regions :=
  ⟨.call (.done _), by decide⟩

/-- DRAM that the unit rejected once cannot be mapped any more. -/
theorem rejected_region_overlaps_itself : ∃ m',
    Runs (MemoryMap.empty.addDynamic (.window 0xC0000000 0x20000000))
      [⟨.mapDynamic (.window 0xC0000000 0x20000000), .error .timeout⟩]
      (.error .dramMappingFailed, m') ∧
    m'.regions = [.window 0xC0000000 0x20000000] ∧
    ∀ t result q, Runs (m'.addDynamic (.window 0xC0000000 0x20000000)) t (result, q) →
      t = [] ∧ result = .error .regionOverlap ∧ q = m' := by
  have hRuns : Runs (MemoryMap.empty.addDynamic (.window 0xC0000000 0x20000000))
      [⟨.mapDynamic (.window 0xC0000000 0x20000000), .error .timeout⟩]
      (.error .dramMappingFailed, ⟨[.window 0xC0000000 0x20000000]⟩) := .call (.done _)
  obtain ⟨-, -, hRejected, -⟩ := failed_addDynamic_keeps_map_unless_rejected hRuns
  obtain ⟨hRegions, hLater⟩ := hRejected rfl
  exact ⟨_, hRuns, hRegions, (hLater [] _ (.nil _)).2⟩

end MemoryMap

end BootStage
