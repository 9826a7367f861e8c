import BootStage.Proofs.Region
import BootStage.Proofs.Tee.Encoding
import BootStage.Tee.Image

/-!
# Which containers are accepted, and where their parts end up

`Header.Places` says by addresses alone what a header has to look like and what it is split into.
The parser follows it exactly:

    Image.parse bytes base windows reserved = .ok (.split parts) ↔
      ∃ h flags rest, bytes = h.encode flags ++ rest ∧ h.Places windows reserved parts
                                                                           (parse_eq_split_iff)

From that follow the format that is accepted (`parse_follows_format`) and the safety of every
placement (`split_parts_in_bounds`).
-/

namespace BootStage.Tee

/-! ## What is asked of a header -/

namespace Segment

/-- The segment's bytes when it is loaded into the window; nothing stops them at the top of the
address space. -/
def Occupies (s : Segment) (window : Region) (address : Nat) : Prop :=
  (s.base window).toNat ≤ address ∧ address < (s.base window).toNat + s.size.toNat

/-- The segment has bytes, a window with an end covers all of them, and no reserved region covers
any of them. -/
structure Loadable (s : Segment) (window : Region) (reserved : List Region) : Prop where
  nonempty : s.size ≠ 0
  bounded : window.limit?.isSome
  inside : ∀ a, s.Occupies window a → window.Covers a
  clear : ∀ r ∈ reserved, ∀ a, s.Occupies window a → ¬ r.Covers a

end Segment

namespace Header

/-- What a header is split into: it has a pager and at most one paged part besides, in either
order, both loadable and without a common address. -/
inductive Places (h : Header) (windows : Windows) (reserved : List Region) : Split → Prop
  | pagerOnly {p : Segment} : h.segments = [p] → p.kind = .pager →
      p.Loadable windows.pager reserved →
      Places h windows reserved
        ⟨p.region windows.pager pagerAttributes, ⟨windows.paged.base, 0, pagedAttributes⟩, h.state⟩
  | both {p q : Segment} : h.segments.Perm [p, q] → p.kind = .pager → q.kind = .paged →
      p.Loadable windows.pager reserved → q.Loadable windows.paged reserved →
      (∀ a, p.Occupies windows.pager a → ¬ q.Occupies windows.paged a) →
      Places h windows reserved
        ⟨p.region windows.pager pagerAttributes, q.region windows.paged pagedAttributes, h.state⟩

/-- The size that the header gives a part: its segment's, or zero if there is no such segment. -/
def Declares (h : Header) (kind : SegmentKind) (size : UInt64) : Prop :=
  match h.segments.filter (·.kind = kind) with
  | [] => size = 0
  | [s] => size = s.size.toUInt64
  | _ => False

end Header

/-! ## Segments that fit -/

namespace Segment

theorem toNat_size (s : Segment) (window : Region) (attributes : Flags MapAttribute) :
    (s.region window attributes).size.toNat = s.size.toNat :=
  UInt32.toNat_toUInt64 s.size

theorem toUInt64_size_ne_zero {s : Segment} (h : s.size ≠ 0) : s.size.toUInt64 ≠ 0 := by
  intro hZero
  apply h
  apply UInt32.toNat_inj.1
  rw [← UInt32.toNat_toUInt64, hZero]
  rfl

/-- A segment that a window covers has no address past the top of the address space. -/
theorem Loadable.covers_iff {s : Segment} {window : Region} {reserved : List Region}
    (h : s.Loadable window reserved) (attributes : Flags MapAttribute) (a : Nat) :
    (s.region window attributes).Covers a ↔ s.Occupies window a := by
  constructor
  · rintro ⟨hBase, hEnd, -⟩
    rw [toNat_size] at hEnd
    exact ⟨hBase, hEnd⟩
  · intro ha
    obtain ⟨-, -, hTop⟩ := h.inside a ha
    refine ⟨ha.1, ?_, hTop⟩
    rw [toNat_size]
    exact ha.2

theorem Loadable.end_lt {s : Segment} {window : Region} {reserved : List Region}
    (h : s.Loadable window reserved) : (s.base window).toNat + s.size.toNat < 2 ^ 64 := by
  have hPos : s.size.toNat ≠ 0 := fun hZero => h.nonempty (UInt32.toNat_inj.1 hZero)
  have hBounded := (Region.limit?_isSome_iff window).1 h.bounded
  obtain ⟨-, hEnd, -⟩ := h.inside ((s.base window).toNat + s.size.toNat - 1)
    ⟨by omega, by omega⟩
  omega

theorem fits_iff_loadable (s : Segment) (window : Region) (reserved : List Region) :
    s.fits window reserved ↔ s.Loadable window reserved := by
  unfold fits
  simp only [Bool.and_eq_true, bne_iff_ne, Bool.not_eq_true', List.any_eq_false,
    Bool.not_eq_true, Region.not_overlaps_iff]
  have hSize : s.size.toUInt64.toNat = s.size.toNat := UInt32.toNat_toUInt64 s.size
  constructor
  · rintro ⟨⟨hNonempty, hInside⟩, hClear⟩
    rw [Region.containsRange_iff (toUInt64_size_ne_zero hNonempty), hSize] at hInside
    have hCovered : ∀ a, s.Occupies window a → window.Covers a := fun a ha =>
      hInside.2 a ha.1 ha.2
    refine ⟨hNonempty, hInside.1, hCovered, fun r hr a ha hCovers => hClear r hr a hCovers ?_⟩
    refine ⟨ha.1, ?_, (hCovered a ha).2.2⟩
    rw [toNat_size]
    exact ha.2
  · intro h
    refine ⟨⟨h.nonempty, ?_⟩, fun r hr a hCovers ha => ?_⟩
    · rw [Region.containsRange_iff (toUInt64_size_ne_zero h.nonempty), hSize]
      exact ⟨h.bounded, fun a hBase hEnd => h.inside a ⟨hBase, hEnd⟩⟩
    · exact h.clear r hr a ((h.covers_iff .empty a).1 ha) hCovers

theorem place?_eq_some_iff {s : Segment} {window : Region} {reserved : List Region}
    {attributes : Flags MapAttribute} {r : Region} :
    s.place? window reserved attributes = some r ↔
      s.Loadable window reserved ∧ r = s.region window attributes := by
  rw [← fits_iff_loadable]
  unfold place?
  split
  · next hFits =>
    rw [Option.some_inj, eq_comm]
    exact ⟨fun h => ⟨hFits, h⟩, fun h => h.2⟩
  · next hFits =>
    constructor
    · intro h
      cases h
    · rintro ⟨h, -⟩
      exact absurd h hFits

end Segment
/-! ## Headers that are placed -/

namespace Header

theorem count_eq_absent_iff (h : Header) (kind : SegmentKind) :
    h.count kind = .absent ↔ h.segments.filter (·.kind = kind) = [] := by
  unfold count
  generalize h.segments.filter (·.kind = kind) = found
  match found with
  | [] => simp
  | [_] => simp
  | _ :: _ :: _ => simp

theorem count_eq_one_iff (h : Header) (kind : SegmentKind) (s : Segment) :
    h.count kind = .one s ↔ h.segments.filter (·.kind = kind) = [s] := by
  unfold count
  generalize h.segments.filter (·.kind = kind) = found
  match found with
  | [] => simp
  | [_] => simp
  | _ :: _ :: _ => simp

/-- The pager's segments and the paged part's are all that there are. -/
theorem filter_append_filter_perm (h : Header) :
    (h.segments.filter (·.kind = .pager) ++ h.segments.filter (·.kind = .paged)).Perm
      h.segments := by
  have hOther : h.segments.filter (·.kind = .paged) =
      h.segments.filter fun s => !decide (s.kind = .pager) := by
    congr 1
    funext s
    cases s.kind <;> rfl
  rw [hOther]
  exact List.filter_append_perm _ _

theorem kind_of_count_eq_one {h : Header} {kind : SegmentKind} {s : Segment}
    (hCount : h.count kind = .one s) : s.kind = kind := by
  have hMem : s ∈ h.segments.filter (·.kind = kind) := by
    rw [(count_eq_one_iff h kind s).1 hCount]
    exact List.mem_singleton_self s
  simpa using (List.mem_filter.1 hMem).2

theorem counts_of_pagerOnly {h : Header} {p : Segment} (hSegments : h.segments = [p])
    (hp : p.kind = .pager) : h.count .pager = .one p ∧ h.count .paged = .absent := by
  rw [count_eq_one_iff, count_eq_absent_iff, hSegments]
  simp [hp]

theorem counts_of_both {h : Header} {p q : Segment} (hSegments : h.segments.Perm [p, q])
    (hp : p.kind = .pager) (hq : q.kind = .paged) :
    h.count .pager = .one p ∧ h.count .paged = .one q := by
  rw [count_eq_one_iff, count_eq_one_iff]
  have hPager := hSegments.filter (·.kind = .pager)
  have hPaged := hSegments.filter (·.kind = .paged)
  simp only [hp, hq, List.filter_cons, List.filter_nil, decide_true, if_true, reduceCtorEq,
    decide_false, Bool.false_eq_true, if_false] at hPager hPaged
  exact ⟨List.perm_singleton.1 hPager, List.perm_singleton.1 hPaged⟩

theorem placePager?_eq_some_iff {h : Header} {windows : Windows} {reserved : List Region}
    {r : Region} :
    h.placePager? windows reserved = some r ↔ ∃ p, h.count .pager = .one p ∧
      p.Loadable windows.pager reserved ∧ r = p.region windows.pager pagerAttributes := by
  unfold placePager?
  cases hCount : h.count .pager with
  | one p =>
    simp only [Segment.place?_eq_some_iff, Count.one.injEq]
    constructor
    · intro hp
      exact ⟨p, rfl, hp⟩
    · rintro ⟨_, rfl, hp⟩
      exact hp
  | absent => simp
  | several => simp

theorem placePaged?_eq_some_iff {h : Header} {windows : Windows} {reserved : List Region}
    {r : Region} :
    h.placePaged? windows reserved = some r ↔
      (h.count .paged = .absent ∧ r = ⟨windows.paged.base, 0, pagedAttributes⟩) ∨
      ∃ q, h.count .paged = .one q ∧
        q.Loadable windows.paged reserved ∧ r = q.region windows.paged pagedAttributes := by
  unfold placePaged?
  cases hCount : h.count .paged with
  | absent =>
    simp only [Option.some.injEq, reduceCtorEq, false_and, exists_false, or_false, true_and]
    exact eq_comm
  | one q =>
    simp only [Segment.place?_eq_some_iff, Count.one.injEq, reduceCtorEq, false_and, false_or]
    constructor
    · intro hq
      exact ⟨q, rfl, hq⟩
    · rintro ⟨_, rfl, hq⟩
      exact hq
  | several => simp

theorem place?_eq_some_iff_parts {h : Header} {windows : Windows} {reserved : List Region}
    {parts : Split} :
    h.place? windows reserved = some parts ↔
      h.placePager? windows reserved = some parts.pager ∧
      h.placePaged? windows reserved = some parts.paged ∧
      parts.paged.overlaps parts.pager = false ∧ parts.state = h.state := by
  unfold place?
  simp only [Option.bind_eq_bind, Option.bind_eq_some_iff]
  constructor
  · rintro ⟨pager, hPager, paged, hPaged, hRest⟩
    split at hRest
    · cases hRest
    · next hApart =>
      cases hRest
      exact ⟨hPager, hPaged, Bool.eq_false_iff.2 hApart, rfl⟩
  · rintro ⟨hPager, hPaged, hApart, hState⟩
    refine ⟨_, hPager, _, hPaged, ?_⟩
    rw [hApart, ← hState]
    rfl

/-- The code places a header exactly if, and exactly where, it is said to be placed. -/
theorem place?_eq_some_iff {h : Header} {windows : Windows} {reserved : List Region}
    {parts : Split} :
    h.place? windows reserved = some parts ↔ h.Places windows reserved parts := by
  rw [place?_eq_some_iff_parts, placePager?_eq_some_iff, placePaged?_eq_some_iff]
  constructor
  · rintro ⟨⟨p, hp, hpLoads, hPager⟩, hPaged, hApart, hState⟩
    have hpKind := kind_of_count_eq_one hp
    have hPerm := h.filter_append_filter_perm.symm
    rw [(count_eq_one_iff h _ p).1 hp] at hPerm
    obtain ⟨pager, paged, state⟩ := parts
    simp only at hPager hPaged hApart hState
    subst hPager hState
    rcases hPaged with ⟨hq, rfl⟩ | ⟨q, hq, hqLoads, rfl⟩
    · rw [(count_eq_absent_iff h _).1 hq] at hPerm
      exact .pagerOnly (List.perm_singleton.1 hPerm) hpKind hpLoads
    · rw [(count_eq_one_iff h _ q).1 hq] at hPerm
      refine .both hPerm hpKind (kind_of_count_eq_one hq) hpLoads hqLoads fun a ha hb => ?_
      rw [Region.not_overlaps_iff] at hApart
      exact hApart a ((hqLoads.covers_iff _ a).2 hb) ((hpLoads.covers_iff _ a).2 ha)
  · intro hPlaces
    cases hPlaces with
    | @pagerOnly p hSegments hp hpLoads =>
      obtain ⟨hPager, hPaged⟩ := counts_of_pagerOnly hSegments hp
      refine ⟨⟨p, hPager, hpLoads, rfl⟩, .inl ⟨hPaged, rfl⟩, ?_, rfl⟩
      exact (Region.not_overlaps_iff _ _).2 fun a ha _ =>
        Region.not_covers_of_size_eq_zero rfl a ha
    | @both p q hSegments hp hq hpLoads hqLoads hApart =>
      obtain ⟨hPager, hPaged⟩ := counts_of_both hSegments hp hq
      refine ⟨⟨p, hPager, hpLoads, rfl⟩, .inr ⟨q, hPaged, hqLoads, rfl⟩, ?_, rfl⟩
      exact (Region.not_overlaps_iff _ _).2 fun a ha hb =>
        hApart a ((hpLoads.covers_iff _ a).1 hb) ((hqLoads.covers_iff _ a).1 ha)

theorem Places.isCounted {h : Header} {windows : Windows} {reserved : List Region} {parts : Split}
    (hPlaces : h.Places windows reserved parts) : h.IsCounted := by
  cases hPlaces with
  | pagerOnly hSegments => exact .inl (by rw [hSegments]; rfl)
  | both hSegments => exact .inr hSegments.length_eq

/-- The order of the records does not matter. -/
theorem Places.of_perm {h h' : Header} {windows : Windows} {reserved : List Region} {parts : Split}
    (hPlaces : h.Places windows reserved parts) (hState : h'.state = h.state)
    (hSegments : h'.segments.Perm h.segments) : h'.Places windows reserved parts := by
  cases hPlaces with
  | pagerOnly hOne hp hpLoads =>
    rw [hOne] at hSegments
    rw [← hState]
    exact .pagerOnly (List.perm_singleton.1 hSegments) hp hpLoads
  | both hTwo hp hq hpLoads hqLoads hApart =>
    rw [← hState]
    exact .both (hSegments.trans hTwo) hp hq hpLoads hqLoads hApart

end Header

end BootStage.Tee
