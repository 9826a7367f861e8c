import BootStage.Config
import BootStage.MemoryMap
import BootStage.Bringup.Actions
import BootStage.Proofs.Ensures
import BootStage.Proofs.Region

/-!
# What the memory map takes

A region is taken exactly if it is valid, shares no address with a region that is held and there is
room for it (`MemoryMap.add_eq_ok_iff`); otherwise the first of these that fails is the error
(`MemoryMap.add_eq_error_iff`).  A layout is `Mappable` if the regions that the stage maps
for itself are such regions for each other; then mapping them cannot fail for a defect of the build.

What the two steps that map memory ask of the memory management unit is listed: memory protection
hands the whole map over or stops at the first refusal (`MemoryMap.HandsOver`), the mapping of DRAM
adds at most one region, and only one that the map takes (`Bringup.ensures_mapDram`).
-/

namespace BootStage

namespace MemoryMap

variable {m m' : MemoryMap} {r : Region} {e : Error}

theorem any_overlaps_eq_false_iff :
    m.regions.any (·.overlaps r) = false ↔ ∀ s ∈ m.regions, s.Apart r := by
  simp only [List.any_eq_false, Bool.not_eq_true, Region.not_overlaps_iff]

theorem add_eq_ok_iff : m.add r = .ok m' ↔
    r.isValid = true ∧ (∀ s ∈ m.regions, s.Apart r) ∧ m.regions.length < capacity ∧
      m' = ⟨m.regions ++ [r]⟩ := by
  rw [← any_overlaps_eq_false_iff]
  unfold add
  cases r.isValid <;> cases m.regions.any (·.overlaps r) <;>
    by_cases hRoom : capacity ≤ m.regions.length <;>
    simp [hRoom, Nat.not_lt.2, Nat.not_le.1, eq_comm]

/-- The three causes, in the order in which they are looked for. -/
theorem add_eq_error_iff : m.add r = .error e ↔
    r.isValid = false ∧ e = .invalidRegion ∨
    r.isValid = true ∧ (∃ s ∈ m.regions, s.overlaps r = true) ∧ e = .regionOverlap ∨
    r.isValid = true ∧ (∀ s ∈ m.regions, s.Apart r) ∧ capacity ≤ m.regions.length ∧
      e = .tableFull := by
  rw [← any_overlaps_eq_false_iff, ← List.any_eq_true]
  unfold add
  cases r.isValid <;> cases m.regions.any (·.overlaps r) <;>
    by_cases hRoom : capacity ≤ m.regions.length <;> simp [hRoom, eq_comm]

theorem causes_of_refused (h : m.add r = .error e) :
    e = .invalidRegion ∨ e = .regionOverlap ∨ e = .tableFull := by
  rcases add_eq_error_iff.1 h with ⟨-, hCause⟩ | ⟨-, -, hCause⟩ | ⟨-, -, -, hCause⟩
  · exact .inl hCause
  · exact .inr (.inl hCause)
  · exact .inr (.inr hCause)

end MemoryMap

/-- The regions that the stage maps for itself are valid, and no two share an address. -/
structure Layout.Mappable (layout : Layout) : Prop where
  valid : ∀ r ∈ Bringup.staticRegions layout, r.isValid = true
  apart : (Bringup.staticRegions layout).Pairwise Region.Apart

/-! ## The regions of the layout -/

/-- The regions are valid, and none shares an address with another or with one that is held. -/
def MemoryMap.Fits (m : MemoryMap) (rs : List Region) : Prop :=
  (∀ r ∈ rs, r.isValid = true) ∧ (m.regions ++ rs).Pairwise Region.Apart

theorem Layout.mappable_iff_fits {layout : Layout} :
    layout.Mappable ↔ MemoryMap.empty.Fits (Bringup.staticRegions layout) :=
  ⟨fun h => ⟨h.valid, h.apart⟩, fun h => ⟨h.1, h.2⟩⟩

theorem MemoryMap.fits_cons_iff {m : MemoryMap} {r : Region} {rs : List Region} :
    m.Fits (r :: rs) ↔ r.isValid = true ∧ MemoryMap.Fits ⟨m.regions ++ [r]⟩ rs := by
  unfold Fits
  rw [List.forall_mem_cons, List.append_assoc, and_assoc]
  rfl

/-- A region that fits is apart from all that are held. -/
theorem MemoryMap.Fits.apart {m : MemoryMap} {r s : Region} {rs : List Region}
    (h : m.Fits (r :: rs)) (hs : s ∈ m.regions) : s.Apart r :=
  (List.pairwise_append.1 h.2).2.2 s hs r List.mem_cons_self

namespace Bringup

/-- Regions that fit are all taken; of others one is refused, and that is a defect.  The board is not
asked. -/
theorem ensures_mapFixed_all {rs : List Region} {b : Bringup}
    (hRoom : (b.memoryMap.regions ++ rs).length ≤ MemoryMap.capacity)
    (hHeld : b.memoryMap.regions.Pairwise Region.Apart) :
    Ensures (rs.forM mapFixed) b fun t x c => t = [] ∧
      (b.memoryMap.Fits rs ∧ x = .ok () ∧
          c = { b with memoryMap := ⟨b.memoryMap.regions ++ rs⟩ } ∨
        ¬ b.memoryMap.Fits rs ∧
          ∃ r ∈ rs, ∃ cause, x = .error (.defect (.unmappable r cause))) := by
  induction rs generalizing b with
  | nil =>
    refine ensures_pure.2 ⟨rfl, .inl ⟨⟨fun r hr => (nomatch hr), ?_⟩, rfl, ?_⟩⟩
    · rw [List.append_nil]
      exact hHeld
    · rw [List.append_nil]
  | cons r rs ih =>
    have hPlace : b.memoryMap.regions.length < MemoryMap.capacity := by
      rw [List.length_append, List.length_cons] at hRoom
      omega
    refine ensures_bind.2 (ensures_get_bind.2 ?_)
    unfold MemoryMap.addFixed
    cases hAdd : b.memoryMap.add r with
    | error cause =>
      refine ensures_throw.2 ⟨rfl, .inr ⟨fun hFits => ?_, r, List.mem_cons_self, cause, rfl⟩⟩
      have hTaken := MemoryMap.add_eq_ok_iff.2
        ⟨hFits.1 r List.mem_cons_self, fun s hs => hFits.apart hs, hPlace, rfl⟩
      rw [hAdd] at hTaken
      cases hTaken
    | ok m =>
      obtain ⟨hValid, hApart, -, rfl⟩ := MemoryMap.add_eq_ok_iff.1 hAdd
      refine ensures_set.2 ((ih ?_ ?_).mono ?_)
      · simpa using hRoom
      · refine List.pairwise_append.2 ⟨hHeld, List.pairwise_singleton _ r, fun s hs q hq => ?_⟩
        rw [List.mem_singleton.1 hq]
        exact hApart s hs
      · rintro t x c ⟨rfl, ⟨hFits, rfl, rfl⟩ | ⟨hNot, q, hq, cause, rfl⟩⟩
        · refine ⟨rfl, .inl ⟨MemoryMap.fits_cons_iff.2 ⟨hValid, hFits⟩, rfl, ?_⟩⟩
          simp
        · refine ⟨rfl, .inr ⟨fun hFits => hNot (MemoryMap.fits_cons_iff.1 hFits).2, ?_⟩⟩
          exact ⟨q, List.mem_cons_of_mem r hq, cause, rfl⟩

end Bringup

/-! ## Handing the map over -/

namespace MemoryMap

/-- The unit takes a region. -/
def accepted (r : Region) : Exchange := ⟨.mapStatic r, .ok ()⟩

/-- What is asked when regions are handed over, and the result: either all are accepted and the unit
is switched on, with its reply as result, or those before one that is refused are accepted. -/
inductive HandsOver (regions : List Region) : List Exchange → Except DriverFault Unit → Prop
  | enabled (reply : Except DriverFault Unit) :
      HandsOver regions (regions.map accepted ++ [⟨.enableMmu, reply⟩]) reply
  | refused {before after : List Region} {r : Region} {fault : DriverFault} :
      regions = before ++ r :: after →
      HandsOver regions (before.map accepted ++ [⟨.mapStatic r, .error fault⟩]) (.error fault)

theorem HandsOver.cons {r : Region} {rs : List Region} {t : List Exchange}
    {result : Except DriverFault Unit} (h : HandsOver rs t result) :
    HandsOver (r :: rs) (accepted r :: t) result := by
  cases h with
  | enabled _ => exact .enabled result
  | @refused before after q fault hEq =>
    have hMore : r :: rs = (r :: before) ++ q :: after := by rw [hEq]; rfl
    exact .refused hMore

theorem handsOver_of_runs {rs : List Region} {t : List Exchange} {result : Except DriverFault Unit}
    (h : Runs (handOver rs) t result) : HandsOver rs t result := by
  induction rs generalizing t with
  | nil =>
    rw [runs_ask_iff.1 h]
    exact .enabled result
  | cons r rs ih =>
    obtain ⟨reply, t₁, t₂, h₁, h₂, rfl⟩ := runs_seq_iff.1 h
    rw [runs_ask_iff.1 h₁]
    cases reply with
    | ok _ => exact (ih h₂).cons
    | error fault =>
      obtain ⟨rfl, rfl⟩ := runs_pure_iff.1 h₂
      have hFront : r :: rs = [] ++ r :: rs := rfl
      exact .refused hFront

/-- How a call of `addDynamic` goes: what it asks, what it answers and the map that it leaves. -/
inductive AddsDynamic (m : MemoryMap) (r : Region) :
    List Exchange → Except Error Unit → MemoryMap → Prop
  | refused {e : Error} : m.add r = .error e → AddsDynamic m r [] (.error e) m
  | mapped {m' : MemoryMap} : m.add r = .ok m' →
      AddsDynamic m r [⟨.mapDynamic r, .ok ()⟩] (.ok ()) m'
  | rejected {m' : MemoryMap} (fault : DriverFault) : m.add r = .ok m' →
      AddsDynamic m r [⟨.mapDynamic r, .error fault⟩] (.error .dramMappingFailed) m'

theorem addsDynamic_of_runs {m m' : MemoryMap} {r : Region} {t : List Exchange}
    {result : Except Error Unit} (h : Runs (m.addDynamic r) t (result, m')) :
    AddsDynamic m r t result m' := by
  unfold addDynamic at h
  cases hAdd : m.add r with
  | error e =>
    rw [hAdd] at h
    obtain ⟨rfl, hEq⟩ := runs_pure_iff.1 h
    cases hEq
    exact .refused hAdd
  | ok taken =>
    rw [hAdd] at h
    obtain ⟨reply, t₁, t₂, h₁, h₂, rfl⟩ := runs_seq_iff.1 h
    rw [runs_ask_iff.1 h₁]
    cases reply with
    | ok _ =>
      obtain ⟨rfl, hEq⟩ := runs_pure_iff.1 h₂
      cases hEq
      exact .mapped hAdd
    | error fault =>
      obtain ⟨rfl, hEq⟩ := runs_pure_iff.1 h₂
      cases hEq
      exact .rejected fault hAdd

/-- A region is handed to the unit in use only if it is valid and apart from what is held. -/
theorem AddsDynamic.asked {m m' : MemoryMap} {r : Region} {t : List Exchange}
    {result : Except Error Unit} (h : AddsDynamic m r t result m') :
    t = [] ∨ ∃ reply, t = [⟨.mapDynamic r, reply⟩] ∧ r.isValid = true ∧
      ∀ s ∈ m.regions, s.Apart r := by
  cases h with
  | refused _ => exact .inl rfl
  | mapped hAdd =>
    obtain ⟨hValid, hApart, -, -⟩ := add_eq_ok_iff.1 hAdd
    exact .inr ⟨.ok (), rfl, hValid, hApart⟩
  | rejected fault hAdd =>
    obtain ⟨hValid, hApart, -, -⟩ := add_eq_ok_iff.1 hAdd
    exact .inr ⟨.error fault, rfl, hValid, hApart⟩

end MemoryMap

/-! ## The two steps that map memory -/

namespace Bringup

/-- With an empty map, memory protection hands a mappable layout over and fails if the unit does;
any other layout is a defect, found before the unit is asked for anything. -/
theorem ensures_protectMemory {b : Bringup} (hEmpty : b.memoryMap = .empty) :
    Ensures protectMemory b fun t x c =>
      (b.config.layout.Mappable ∧ c.memoryMap = ⟨staticRegions b.config.layout⟩ ∧
        ∃ reply, MemoryMap.HandsOver (staticRegions b.config.layout) t reply ∧
          x = reply.mapError fun _ => .failed .mmuConfigFailed) ∨
      ¬ b.config.layout.Mappable ∧ t = [] ∧
        ∃ r ∈ staticRegions b.config.layout, ∃ cause,
          x = .error (.defect (.unmappable r cause)) := by
  refine ensures_get_bind.2 (ensures_bind.2 ((ensures_mapFixed_all ?_ ?_).mono ?_))
  · rw [hEmpty]
    show 3 ≤ MemoryMap.capacity
    decide
  · rw [hEmpty]
    exact List.Pairwise.nil
  · rw [Layout.mappable_iff_fits, hEmpty]
    rintro t x c ⟨rfl, ⟨hFits, rfl, rfl⟩ | ⟨hNot, r, hr, cause, rfl⟩⟩
    · refine ensures_get_bind.2 (ensures_lift_bind.2 fun t reply hRuns => ?_)
      have hOver : MemoryMap.HandsOver (staticRegions b.config.layout) t reply :=
        MemoryMap.handsOver_of_runs hRuns
      cases reply with
      | ok _ => exact ensures_pure.2 (.inl ⟨hFits, rfl, .ok (), by simpa using hOver, rfl⟩)
      | error fault =>
        exact ensures_throw.2 (.inl ⟨hFits, rfl, .error fault, by simpa using hOver, rfl⟩)
    · exact .inr ⟨hNot, rfl, r, hr, cause, rfl⟩

/-- Only DRAM that is valid and apart from what is held is handed to the unit. -/
theorem ensures_mapDram {b : Bringup} :
    Ensures mapDram b fun t _ _ => ∃ size : UInt64, t = [⟨.dramSize, size⟩] ∨
      ∃ reply, t = [⟨.dramSize, size⟩, ⟨.mapDynamic (b.config.layout.dram size), reply⟩] ∧
        (b.config.layout.dram size).isValid = true ∧
          ∀ s ∈ b.memoryMap.regions, s.Apart (b.config.layout.dram size) := by
  refine ensures_lift_bind.2 fun t size hRuns => ?_
  rw [runs_ask_iff.1 hRuns]
  by_cases hZero : size = 0
  · rw [if_pos hZero]
    exact ensures_bind.2 (ensures_throw.2 ⟨size, .inl rfl⟩)
  rw [if_neg hZero]
  refine ensures_get_bind.2 (ensures_lift_bind.2 fun t' p hAdds => ?_)
  refine ensures_bind.2 (ensures_set.2 ?_)
  have hAsked := (MemoryMap.addsDynamic_of_runs hAdds).asked
  have hEnd : ∀ x : Except Error Unit, Ensures (Action.ofExcept x) { b with memoryMap := p.2 }
      fun t'' _ _ => t'' = [] := by
    intro x
    cases x with
    | ok _ => exact ensures_pure.2 rfl
    | error e => exact ensures_throw.2 rfl
  refine (hEnd p.1).mono fun t'' x c hNoMore => ⟨size, ?_⟩
  rw [hNoMore]
  rcases hAsked with rfl | ⟨reply, rfl, hValid, hApart⟩
  · exact .inl rfl
  · exact .inr ⟨reply, rfl, hValid, hApart⟩

end Bringup

end BootStage
