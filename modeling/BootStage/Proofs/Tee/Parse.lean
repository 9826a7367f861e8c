import BootStage.Proofs.Tee.Placement

/-!
# The image parser

An image is monolithic exactly if it has no signature, split exactly if it is a container that can
be placed, and refused otherwise (`parse_follows_format`).  Of a container that was split, no
address leaves its window, falls into a reserved region or belongs to both parts
(`split_parts_in_bounds`).
-/

namespace BootStage.Tee

variable {bytes : List UInt8} {base : UInt64} {windows : Windows} {reserved : List Region}

/-! ## Which images are accepted -/

theorem parse_eq_monolithic_iff (address : UInt64) :
    Image.parse bytes base windows reserved = .ok (.monolithic address) ↔
      ¬ signature <+: bytes ∧ address = base := by
  rw [← hasSignature_iff, ← Header.scan_eq_unsigned_iff]
  unfold Image.parse
  cases hScan : Header.scan bytes with
  | unsigned =>
    simp only [Except.ok.injEq, Image.monolithic.injEq, true_and]
    exact eq_comm
  | malformed => simp
  | header h => cases hPlace : h.place? windows reserved <;> simp [hPlace]

theorem parse_eq_split_iff (parts : Split) :
    Image.parse bytes base windows reserved = .ok (.split parts) ↔
      ∃ h flags rest, bytes = Header.encode h flags ++ rest ∧ h.Places windows reserved parts := by
  unfold Image.parse
  constructor
  · intro hParse
    cases hScan : Header.scan bytes with
    | unsigned => simp [hScan] at hParse
    | malformed => simp [hScan] at hParse
    | header h =>
      obtain ⟨-, flags, rest, hBytes⟩ := Header.scan_eq_header_iff.1 hScan
      refine ⟨h, flags, rest, hBytes, Header.place?_eq_some_iff.1 ?_⟩
      cases hPlace : h.place? windows reserved with
      | none => simp [hScan, hPlace] at hParse
      | some placed =>
        simp only [hScan, hPlace, Except.ok.injEq, Image.split.injEq] at hParse
        rw [hParse]
  · rintro ⟨h, flags, rest, hBytes, hPlaces⟩
    have hScan := Header.scan_eq_header_iff.2 ⟨hPlaces.isCounted, flags, rest, hBytes⟩
    simp only [hScan, Header.place?_eq_some_iff.2 hPlaces]

theorem eq_teeHeaderInvalid_of_parse_eq_error {e : Error}
    (hParse : Image.parse bytes base windows reserved = .error e) : e = .teeHeaderInvalid := by
  unfold Image.parse at hParse
  cases hScan : Header.scan bytes with
  | unsigned => simp [hScan] at hParse
  | malformed => simpa [hScan, eq_comm] using hParse
  | header h => cases hPlace : h.place? windows reserved <;> simp_all

/-- Whatever is neither monolithic nor a container that can be placed is refused. -/
theorem parse_eq_error_iff :
    Image.parse bytes base windows reserved = .error .teeHeaderInvalid ↔ signature <+: bytes ∧
      ∀ h flags rest parts, bytes = Header.encode h flags ++ rest →
        ¬ h.Places windows reserved parts := by
  constructor
  · intro hParse
    refine ⟨?_, fun h flags rest parts hBytes hPlaces => ?_⟩
    · by_contra hUnsigned
      rw [(parse_eq_monolithic_iff base).2 ⟨hUnsigned, rfl⟩] at hParse
      cases hParse
    · rw [(parse_eq_split_iff parts).2 ⟨h, flags, rest, hBytes, hPlaces⟩] at hParse
      cases hParse
  · rintro ⟨hSigned, hUnplaced⟩
    cases hParse : Image.parse bytes base windows reserved with
    | error e => rw [eq_teeHeaderInvalid_of_parse_eq_error hParse]
    | ok image =>
      cases image with
      | monolithic address => exact absurd hSigned ((parse_eq_monolithic_iff address).1 hParse).1
      | split parts =>
        obtain ⟨h, flags, rest, hBytes, hPlaces⟩ := (parse_eq_split_iff parts).1 hParse
        exact absurd hPlaces (hUnplaced h flags rest parts hBytes)

/-- The parser accepts exactly the format: images without the signature are monolithic, containers
whose header can be placed are split as the header says, and every other image is refused.  The
flags, the order of the records, the bytes behind them and the base of the image make no
difference to a container. -/
theorem parse_follows_format (bytes : List UInt8) (base : UInt64) (windows : Windows)
    (reserved : List Region) :
    (∀ address, Image.parse bytes base windows reserved = .ok (.monolithic address) ↔
      ¬ signature <+: bytes ∧ address = base) ∧
    (∀ parts, Image.parse bytes base windows reserved = .ok (.split parts) ↔
      ∃ h flags rest, bytes = Header.encode h flags ++ rest ∧ h.Places windows reserved parts) ∧
    (Image.parse bytes base windows reserved = .error .teeHeaderInvalid ↔ signature <+: bytes ∧
      ∀ h flags rest parts, bytes = Header.encode h flags ++ rest →
        ¬ h.Places windows reserved parts) ∧
    (∀ e, Image.parse bytes base windows reserved = .error e → e = .teeHeaderInvalid) ∧
    ∀ h flags rest parts, bytes = Header.encode h flags ++ rest →
      h.Places windows reserved parts →
      ∀ (h' : Header) flags' rest' base', h'.state = h.state → h'.segments.Perm h.segments →
        Image.parse (h'.encode flags' ++ rest') base' windows reserved = .ok (.split parts) := by
  refine ⟨parse_eq_monolithic_iff, parse_eq_split_iff, parse_eq_error_iff,
    fun _ => eq_teeHeaderInvalid_of_parse_eq_error, ?_⟩
  intro h flags rest parts _ hPlaces h' flags' rest' base' hState hSegments
  exact (parse_eq_split_iff parts).2
    ⟨h', flags', rest', rfl, hPlaces.of_perm hState hSegments⟩

/-- A container with the paged part in front: one byte at the end of its window, and a pager at the
base of its window. -/
def pagedFirst : List UInt8 :=
  Header.encode ⟨.aarch64, [⟨.paged, 0x9FFF, 1⟩, ⟨.pager, atWindowBase, 0x1000⟩]⟩ (0x12, 0x34) ++
    [1, 2, 3]

/-- Overlapping windows. -/
def crossingWindows : Windows := ⟨.window 0x1000 0x3000, .window 0x2000 0x8000⟩

/-- A region just behind the paged part, and one that runs past the top of the address space. -/
def crossingReserved : List Region := [.window 0xA000 1, .window 0xFFFFFFFFFFFFFFFF 2]

theorem parse_pagedFirst : Image.parse pagedFirst 7 crossingWindows crossingReserved =
    .ok (.split ⟨⟨0x1000, 0x1000, pagerAttributes⟩, ⟨0x9FFF, 1, pagedAttributes⟩, .aarch64⟩) := by
  decide +kernel

/-! ## Where the parts of a container lie -/

theorem Segment.Loadable.region_size_ne_zero {s : Segment} {window : Region}
    (hLoads : s.Loadable window reserved) (attributes : Flags MapAttribute) :
    (s.region window attributes).size ≠ 0 :=
  Segment.toUInt64_size_ne_zero hLoads.nonempty

theorem Segment.Loadable.region_end_lt {s : Segment} {window : Region}
    (hLoads : s.Loadable window reserved) (attributes : Flags MapAttribute) :
    (s.region window attributes).base.toNat + (s.region window attributes).size.toNat <
      2 ^ 64 := by
  rw [Segment.toNat_size]
  exact hLoads.end_lt

theorem Header.Places.declares {h : Header} {parts : Split}
    (hPlaces : h.Places windows reserved parts) :
    h.Declares .pager parts.pager.size ∧ h.Declares .paged parts.paged.size := by
  unfold Header.Declares
  cases hPlaces with
  | pagerOnly hSegments hp =>
    obtain ⟨hPager, hPaged⟩ := Header.counts_of_pagerOnly hSegments hp
    rw [(Header.count_eq_one_iff h _ _).1 hPager, (Header.count_eq_absent_iff h _).1 hPaged]
    exact ⟨rfl, rfl⟩
  | both hSegments hp hq =>
    obtain ⟨hPager, hPaged⟩ := Header.counts_of_both hSegments hp hq
    rw [(Header.count_eq_one_iff h _ _).1 hPager, (Header.count_eq_one_iff h _ _).1 hPaged]
    exact ⟨rfl, rfl⟩

theorem Header.Places.state_eq {h : Header} {parts : Split}
    (hPlaces : h.Places windows reserved parts) : parts.state = h.state := by
  cases hPlaces <;> rfl

theorem Header.Places.pager_size_ne_zero {h : Header} {parts : Split}
    (hPlaces : h.Places windows reserved parts) : parts.pager.size ≠ 0 := by
  cases hPlaces with
  | pagerOnly _ _ hpLoads => exact hpLoads.region_size_ne_zero _
  | both _ _ _ hpLoads _ _ => exact hpLoads.region_size_ne_zero _

theorem Segment.Loadable.within {s : Segment} {window : Region} (hLoads : s.Loadable window reserved)
    (attributes : Flags MapAttribute) : (s.region window attributes).Within window := by
  intro a hBase hEnd
  rw [Segment.toNat_size] at hEnd
  exact hLoads.inside a ⟨hBase, hEnd⟩

theorem Header.Places.within {h : Header} {parts : Split}
    (hPlaces : h.Places windows reserved parts) :
    parts.pager.Within windows.pager ∧ parts.paged.Within windows.paged := by
  cases hPlaces with
  | pagerOnly _ _ hpLoads => exact ⟨hpLoads.within _, Region.within_of_size_eq_zero rfl _⟩
  | both _ _ _ hpLoads hqLoads _ => exact ⟨hpLoads.within _, hqLoads.within _⟩

theorem Header.Places.apart {h : Header} {parts : Split}
    (hPlaces : h.Places windows reserved parts) : parts.pager.Apart parts.paged := by
  cases hPlaces with
  | pagerOnly _ _ _ => exact fun a _ => Region.not_covers_of_size_eq_zero rfl a
  | both _ _ _ hpLoads hqLoads hApart =>
    intro a hp hq
    exact hApart a ((hpLoads.covers_iff _ a).1 hp) ((hqLoads.covers_iff _ a).1 hq)

/-- The address that is looked up beforehand is the one of the header's only pager. -/
theorem Header.Places.exists_pager {h : Header} {parts : Split}
    (hPlaces : h.Places windows reserved parts) (flags : UInt8 × UInt8) (rest : List UInt8) :
    ∃ pager, h.segments.filter (·.kind = .pager) = [pager] ∧
      pagerAddress? (h.encode flags ++ rest) = some pager.address := by
  have hScan : Header.scan (h.encode flags ++ rest) = .header h :=
    Header.scan_eq_header_iff.2 ⟨hPlaces.isCounted, flags, rest, rfl⟩
  obtain ⟨p, hp⟩ : ∃ p, h.count .pager = .one p := by
    cases hPlaces with
    | pagerOnly hSegments hp => exact ⟨_, (Header.counts_of_pagerOnly hSegments hp).1⟩
    | both hSegments hp hq => exact ⟨_, (Header.counts_of_both hSegments hp hq).1⟩
  refine ⟨p, (Header.count_eq_one_iff h .pager p).1 hp, ?_⟩
  unfold pagerAddress?
  simp only [hScan, hp]

/-- The placement of a container is safe: the pager lies in its window, so does the paged part
unless it is empty, they share no address with each other or with a reserved region, they have
exactly the sizes that the header declares, and the image is entered at the base of the pager. -/
theorem split_parts_in_bounds {parts : Split}
    (hParse : Image.parse bytes base windows reserved = .ok (.split parts)) :
    (parts.pager.size ≠ 0 ∧ parts.pager.base.toNat + parts.pager.size.toNat < 2 ^ 64 ∧
      ∀ a, parts.pager.Covers a → windows.pager.Covers a) ∧
    (parts.paged.size = 0 ∧ parts.paged.base = windows.paged.base ∨
      parts.paged.base.toNat + parts.paged.size.toNat < 2 ^ 64 ∧
        ∀ a, parts.paged.Covers a → windows.paged.Covers a) ∧
    (∀ a, parts.pager.Covers a → ¬ parts.paged.Covers a) ∧
    (∀ r ∈ reserved, ∀ a, r.Covers a → ¬ parts.pager.Covers a ∧ ¬ parts.paged.Covers a) ∧
    (∃ h flags rest, bytes = Header.encode h flags ++ rest ∧ h.IsCounted ∧
      h.Declares .pager parts.pager.size ∧ h.Declares .paged parts.paged.size) ∧
    (Image.split parts).entryPoint = parts.pager.base := by
  obtain ⟨h, flags, rest, hBytes, hPlaces⟩ := (parse_eq_split_iff parts).1 hParse
  have hDeclared : ∃ h flags rest, bytes = Header.encode h flags ++ rest ∧ h.IsCounted ∧
      h.Declares .pager parts.pager.size ∧ h.Declares .paged parts.paged.size :=
    ⟨h, flags, rest, hBytes, hPlaces.isCounted, hPlaces.declares⟩
  cases hPlaces with
  | @pagerOnly p hSegments hp hpLoads =>
    have hEmpty : ∀ a, ¬ (⟨windows.paged.base, 0, pagedAttributes⟩ : Region).Covers a :=
      Region.not_covers_of_size_eq_zero rfl
    refine ⟨⟨hpLoads.region_size_ne_zero _, hpLoads.region_end_lt _, fun a ha => ?_⟩,
      .inl ⟨rfl, rfl⟩, fun a _ => hEmpty a, fun r hr a ha => ⟨fun hb => ?_, hEmpty a⟩,
      hDeclared, rfl⟩
    · exact hpLoads.inside a ((hpLoads.covers_iff _ a).1 ha)
    · exact hpLoads.clear r hr a ((hpLoads.covers_iff _ a).1 hb) ha
  | @both p q hSegments hp hq hpLoads hqLoads hApart =>
    refine ⟨⟨hpLoads.region_size_ne_zero _, hpLoads.region_end_lt _, fun a ha => ?_⟩,
      .inr ⟨hqLoads.region_end_lt _, fun a ha => ?_⟩, fun a ha hb => ?_,
      fun r hr a ha => ⟨fun hb => ?_, fun hb => ?_⟩, hDeclared, rfl⟩
    · exact hpLoads.inside a ((hpLoads.covers_iff _ a).1 ha)
    · exact hqLoads.inside a ((hqLoads.covers_iff _ a).1 ha)
    · exact hApart a ((hpLoads.covers_iff _ a).1 ha) ((hqLoads.covers_iff _ a).1 hb)
    · exact hpLoads.clear r hr a ((hpLoads.covers_iff _ a).1 hb) ha
    · exact hqLoads.clear r hr a ((hqLoads.covers_iff _ a).1 hb) ha

theorem pagedFirst_in_bounds : ∃ parts,
    Image.parse pagedFirst 7 crossingWindows crossingReserved = .ok (.split parts) ∧
    (∀ a, parts.pager.Covers a → crossingWindows.pager.Covers a) ∧
    ∀ r ∈ crossingReserved, ∀ a, r.Covers a → ¬ parts.pager.Covers a ∧ ¬ parts.paged.Covers a := by
  have hParse : Image.parse pagedFirst 7 crossingWindows crossingReserved =
      .ok (.split ⟨⟨0x1000, 0x1000, pagerAttributes⟩, ⟨0x9FFF, 1, pagedAttributes⟩, .aarch64⟩) := by
    decide +kernel
  obtain ⟨⟨-, -, hPager⟩, -, -, hReserved, -⟩ := split_parts_in_bounds hParse
  exact ⟨_, hParse, hPager, hReserved⟩

end BootStage.Tee
