import BootStage.Tee.Header
import Mathlib.Data.Nat.Bitwise

/-!
# Reading a header gives back what was written, and nothing else

Each reader of the format accepts exactly the front that the writer beside it produces and leaves
the rest alone:

    takeWord bytes = some (w, rest) ↔ bytes = bytesOfWord w ++ rest          (takeWord_eq_some_iff)
    Segment.take bytes = some (s, rest) ↔ bytes = s.encode ++ rest           (take_eq_some_iff)
    Header.scan bytes = .header h ↔ one or two segments, and `bytes` starts with an encoding of `h`
                                                                             (scan_eq_header_iff)
-/

namespace BootStage.Tee

/-! ## Words -/

theorem toNat_wordOfBytes (b₀ b₁ b₂ b₃ : UInt8) :
    (wordOfBytes b₀ b₁ b₂ b₃).toNat =
      b₀.toNat + 2 ^ 8 * b₁.toNat + 2 ^ 16 * b₂.toNat + 2 ^ 24 * b₃.toNat := by
  have h₀ := b₀.toNat_lt
  have h₁ := b₁.toNat_lt
  have h₂ := b₂.toNat_lt
  have h₃ := b₃.toNat_lt
  -- the bytes do not overlap, so each `or` is a sum, the higher byte in front
  have hLow : b₀.toNat ||| b₁.toNat <<< 8 = b₁.toNat <<< 8 + b₀.toNat := by
    rw [Nat.lor_comm, ← Nat.shiftLeft_add_eq_or_of_lt (by omega)]
  have hMid : (b₀.toNat ||| b₁.toNat <<< 8) ||| b₂.toNat <<< 16 =
      b₂.toNat <<< 16 + (b₁.toNat <<< 8 + b₀.toNat) := by
    rw [hLow, Nat.lor_comm, ← Nat.shiftLeft_add_eq_or_of_lt]
    rw [Nat.shiftLeft_eq]
    omega
  have hAll : ((b₀.toNat ||| b₁.toNat <<< 8) ||| b₂.toNat <<< 16) ||| b₃.toNat <<< 24 =
      b₃.toNat <<< 24 + (b₂.toNat <<< 16 + (b₁.toNat <<< 8 + b₀.toNat)) := by
    rw [hMid, Nat.lor_comm, ← Nat.shiftLeft_add_eq_or_of_lt]
    simp only [Nat.shiftLeft_eq]
    omega
  have hMod : ∀ (b : UInt8) (n : UInt32), n.toNat ≤ 24 →
      (b.toUInt32 <<< n).toNat = b.toNat <<< n.toNat := by
    intro b n hn
    have hb := b.toNat_lt
    have hPow : 2 ^ n.toNat ≤ 2 ^ 24 := Nat.pow_le_pow_right (by omega) hn
    have hMul : b.toNat * 2 ^ n.toNat ≤ 255 * 2 ^ 24 := Nat.mul_le_mul (by omega) hPow
    rw [UInt32.toNat_shiftLeft, UInt8.toNat_toUInt32, Nat.mod_eq_of_lt (show n.toNat < 32 by omega),
      Nat.shiftLeft_eq, Nat.mod_eq_of_lt (by omega)]
  unfold wordOfBytes
  rw [UInt32.toNat_or, UInt32.toNat_or, UInt32.toNat_or, UInt8.toNat_toUInt32, hMod b₁ 8 (by decide),
    hMod b₂ 16 (by decide), hMod b₃ 24 (by decide)]
  refine hAll.trans ?_
  simp only [Nat.shiftLeft_eq]
  omega

theorem toNat_byteAt (w n : UInt32) (h : n.toNat < 32) :
    (w >>> n).toUInt8.toNat = w.toNat / 2 ^ n.toNat % 256 := by
  rw [UInt32.toNat_toUInt8, UInt32.toNat_shiftRight, Nat.mod_eq_of_lt h, Nat.shiftRight_eq_div_pow]

theorem wordOfBytes_bytesOfWord (w : UInt32) :
    wordOfBytes w.toUInt8 (w >>> 8).toUInt8 (w >>> 16).toUInt8 (w >>> 24).toUInt8 = w := by
  have hw := w.toNat_lt
  apply UInt32.toNat_inj.1
  rw [toNat_wordOfBytes, UInt32.toNat_toUInt8, toNat_byteAt w 8 (by decide),
    toNat_byteAt w 16 (by decide), toNat_byteAt w 24 (by decide)]
  simp only [UInt32.reduceToNat]
  omega

theorem bytesOfWord_wordOfBytes (b₀ b₁ b₂ b₃ : UInt8) :
    bytesOfWord (wordOfBytes b₀ b₁ b₂ b₃) = [b₀, b₁, b₂, b₃] := by
  have h₀ := b₀.toNat_lt
  have h₁ := b₁.toNat_lt
  have h₂ := b₂.toNat_lt
  have h₃ := b₃.toNat_lt
  have hWord := toNat_wordOfBytes b₀ b₁ b₂ b₃
  unfold bytesOfWord
  congr 1
  · apply UInt8.toNat_inj.1
    rw [UInt32.toNat_toUInt8, hWord]
    omega
  congr 1
  · apply UInt8.toNat_inj.1
    rw [toNat_byteAt _ 8 (by decide), hWord]
    simp only [UInt32.reduceToNat]
    omega
  congr 1
  · apply UInt8.toNat_inj.1
    rw [toNat_byteAt _ 16 (by decide), hWord]
    simp only [UInt32.reduceToNat]
    omega
  congr 1
  · apply UInt8.toNat_inj.1
    rw [toNat_byteAt _ 24 (by decide), hWord]
    simp only [UInt32.reduceToNat]
    omega

theorem takeWord_eq_some_iff {bytes rest : List UInt8} {w : UInt32} :
    takeWord bytes = some (w, rest) ↔ bytes = bytesOfWord w ++ rest := by
  constructor
  · intro h
    match bytes, h with
    | b₀ :: b₁ :: b₂ :: b₃ :: tail, h =>
      simp only [takeWord, Option.some.injEq, Prod.mk.injEq] at h
      obtain ⟨rfl, rfl⟩ := h
      rw [bytesOfWord_wordOfBytes]
      rfl
  · rintro rfl
    show some (wordOfBytes _ _ _ _, rest) = _
    rw [wordOfBytes_bytesOfWord]

theorem toNat_addressOfWords (high low : UInt32) :
    (addressOfWords high low).toNat = 2 ^ 32 * high.toNat + low.toNat := by
  have hHigh := high.toNat_lt
  have hLow := low.toNat_lt
  have hOr : high.toNat <<< 32 ||| low.toNat = high.toNat <<< 32 + low.toNat := by
    rw [← Nat.shiftLeft_add_eq_or_of_lt hLow]
  unfold addressOfWords
  rw [UInt64.toNat_or, UInt64.toNat_shiftLeft, UInt32.toNat_toUInt64, UInt32.toNat_toUInt64]
  simp only [UInt64.reduceToNat, Nat.reduceMod]
  rw [Nat.mod_eq_of_lt (by rw [Nat.shiftLeft_eq]; omega), hOr, Nat.shiftLeft_eq]
  omega

theorem toNat_highWord (a : UInt64) : (a >>> 32).toUInt32.toNat = a.toNat / 2 ^ 32 := by
  have ha := a.toNat_lt
  rw [UInt64.toNat_toUInt32, UInt64.toNat_shiftRight]
  simp only [UInt64.reduceToNat, Nat.reduceMod]
  rw [Nat.shiftRight_eq_div_pow]
  omega

theorem addressOfWords_words (a : UInt64) :
    addressOfWords (a >>> 32).toUInt32 a.toUInt32 = a := by
  apply UInt64.toNat_inj.1
  rw [toNat_addressOfWords, toNat_highWord, UInt64.toNat_toUInt32]
  omega

theorem highWord_addressOfWords (high low : UInt32) :
    (addressOfWords high low >>> 32).toUInt32 = high := by
  have hLow := low.toNat_lt
  apply UInt32.toNat_inj.1
  rw [toNat_highWord, toNat_addressOfWords]
  omega

theorem lowWord_addressOfWords (high low : UInt32) :
    (addressOfWords high low).toUInt32 = low := by
  have hLow := low.toNat_lt
  apply UInt32.toNat_inj.1
  rw [UInt64.toNat_toUInt32, toNat_addressOfWords]
  omega

/-! ## Segments -/

theorem ofWord?_eq_some_iff {w : UInt32} {kind : SegmentKind} :
    SegmentKind.ofWord? w = some kind ↔ w = kind.word := by
  unfold SegmentKind.ofWord?
  by_cases hZero : w = 0
  · subst hZero
    cases kind <;> decide
  · by_cases hOne : w = 1
    · subst hOne
      cases kind <;> decide
    · rw [if_neg hZero, if_neg hOne]
      cases kind <;> simp [SegmentKind.word, hZero, hOne]

namespace Segment

theorem take_eq_some_iff {bytes rest : List UInt8} {s : Segment} :
    take bytes = some (s, rest) ↔ bytes = s.encode ++ rest := by
  unfold take encode
  constructor
  · intro h
    simp only [Option.bind_eq_bind, Option.bind_eq_some_iff, Prod.exists, Option.some.injEq,
      Prod.mk.injEq, takeWord_eq_some_iff, ofWord?_eq_some_iff] at h
    obtain ⟨high, _, rfl, low, _, rfl, _, _, rfl, size, _, rfl, kind, rfl, rfl, rfl⟩ := h
    simp only [highWord_addressOfWords, lowWord_addressOfWords, List.append_assoc]
  · rintro rfl
    have hWord : ∀ (w : UInt32) (tail : List UInt8),
        takeWord (bytesOfWord w ++ tail) = some (w, tail) := fun w tail =>
      takeWord_eq_some_iff.2 rfl
    simp only [List.append_assoc, hWord, Option.bind_eq_bind, Option.bind_some,
      ofWord?_eq_some_iff.2 rfl, addressOfWords_words]

/-- Records are read as long as there are any to read; what follows them is not looked at. -/
theorem takeMany_eq_some_iff {n : Nat} {bytes : List UInt8} {segments : List Segment} :
    takeMany n bytes = some segments ↔
      segments.length = n ∧ ∃ rest, bytes = segments.flatMap encode ++ rest := by
  induction n generalizing bytes segments with
  | zero =>
    simp only [takeMany, Option.some.injEq, List.length_eq_zero_iff]
    constructor
    · rintro rfl
      exact ⟨rfl, bytes, rfl⟩
    · rintro ⟨rfl, -⟩
      rfl
  | succ n ih =>
    simp only [takeMany, Option.bind_eq_bind, Option.bind_eq_some_iff, Prod.exists,
      Option.some.injEq, take_eq_some_iff, ih]
    constructor
    · rintro ⟨s, _, rfl, others, ⟨rfl, rest, rfl⟩, rfl⟩
      refine ⟨rfl, rest, ?_⟩
      rw [List.flatMap_cons, List.append_assoc]
    · rintro ⟨hLength, rest, rfl⟩
      cases segments with
      | nil => cases hLength
      | cons s others =>
        refine ⟨s, others.flatMap encode ++ rest, ?_, others, ⟨?_, rest, rfl⟩, rfl⟩
        · rw [List.flatMap_cons, List.append_assoc]
        · exact Nat.succ.inj hLength

end Segment

/-! ## Headers -/

theorem stateOfByte?_eq_some_iff {b : UInt8} {state : ExecutionState} :
    stateOfByte? b = some state ↔ b = stateByte state := by
  unfold stateOfByte?
  by_cases hZero : b = 0
  · subst hZero
    cases state <;> decide
  · by_cases hOne : b = 1
    · subst hOne
      cases state <;> decide
    · rw [if_neg hZero, if_neg hOne]
      cases state <;> simp [stateByte, hZero, hOne]

theorem hasSignature_iff (bytes : List UInt8) : hasSignature bytes ↔ signature <+: bytes :=
  List.isPrefixOf_iff_prefix

namespace Header

/-- The number of segments is one that the format allows. -/
def IsCounted (h : Header) : Prop := h.segments.length = 1 ∨ h.segments.length = 2

theorem count_in_range_iff (w : UInt32) :
    ¬(w = 0 ∨ 2 < w) ↔ w.toNat = 1 ∨ w.toNat = 2 := by
  rw [← UInt32.toNat_inj, UInt32.lt_iff_toNat_lt]
  simp only [UInt32.reduceToNat]
  omega

/-- What is checked of a body, field by field. -/
theorem takeBody_cons_eq_some_iff {version state f₁ f₂ : UInt8} {tail : List UInt8} {h : Header} :
    takeBody (version :: state :: f₁ :: f₂ :: tail) = some h ↔
      version = formatVersion ∧ state = stateByte h.state ∧ ∃ count body,
        tail = bytesOfWord count ++ body ∧ (count.toNat = 1 ∨ count.toNat = 2) ∧
          Segment.takeMany count.toNat body = some h.segments := by
  simp only [takeBody]
  by_cases hVersion : version = formatVersion
  · simp only [hVersion, ne_eq, not_true_eq_false, if_false, true_and, Option.bind_eq_bind,
      Option.bind_eq_some_iff, Prod.exists, stateOfByte?_eq_some_iff, takeWord_eq_some_iff]
    constructor
    · rintro ⟨_, rfl, count, body, rfl, hRest⟩
      by_cases hCount : count = 0 ∨ 2 < count
      · rw [if_pos hCount] at hRest
        cases hRest
      · rw [if_neg hCount, Option.bind_eq_some_iff] at hRest
        obtain ⟨segments, hMany, hHeader⟩ := hRest
        cases hHeader
        exact ⟨rfl, count, body, rfl, (count_in_range_iff count).1 hCount, hMany⟩
    · rintro ⟨rfl, count, body, rfl, hCount, hMany⟩
      refine ⟨h.state, rfl, count, body, rfl, ?_⟩
      rw [if_neg ((count_in_range_iff count).2 hCount), hMany]
      rfl
  · simp only [hVersion, ne_eq, not_false_eq_true, if_true, false_and, iff_false]
    intro hNone
    cases hNone

theorem takeBody_eq_some_iff {bytes : List UInt8} {h : Header} :
    takeBody bytes = some h ↔ h.IsCounted ∧ ∃ (flags : UInt8 × UInt8) (rest : List UInt8),
      bytes = [formatVersion, stateByte h.state, flags.1, flags.2] ++
        (bytesOfWord (UInt32.ofNat h.segments.length) ++
          (h.segments.flatMap Segment.encode ++ rest)) := by
  constructor
  · intro hTake
    match bytes, hTake with
    | version :: state :: f₁ :: f₂ :: tail, hTake =>
      obtain ⟨rfl, rfl, count, body, rfl, hCount, hMany⟩ := takeBody_cons_eq_some_iff.1 hTake
      obtain ⟨hLength, rest, rfl⟩ := Segment.takeMany_eq_some_iff.1 hMany
      refine ⟨?_, (f₁, f₂), rest, ?_⟩
      · unfold IsCounted
        rw [hLength]
        exact hCount
      · rw [hLength, UInt32.ofNat_toNat]
        rfl
  · rintro ⟨hCount, ⟨f₁, f₂⟩, rest, rfl⟩
    have hLength : (UInt32.ofNat h.segments.length).toNat = h.segments.length := by
      rw [UInt32.toNat_ofNat', Nat.mod_eq_of_lt]
      rcases hCount with hOne | hTwo <;> omega
    refine takeBody_cons_eq_some_iff.2 ⟨rfl, rfl, _, _, rfl, ?_, ?_⟩
    · rw [hLength]
      exact hCount
    · rw [hLength]
      exact Segment.takeMany_eq_some_iff.2 ⟨rfl, rest, rfl⟩

theorem scan_eq_unsigned_iff (bytes : List UInt8) :
    scan bytes = .unsigned ↔ ¬ hasSignature bytes := by
  unfold scan
  split
  · split <;> simp_all
  · simp_all

/-- A header is found exactly at the front of its own encodings, whatever the flags and whatever
follows the records. -/
theorem scan_eq_header_iff {bytes : List UInt8} {h : Header} :
    scan bytes = .header h ↔
      h.IsCounted ∧ ∃ flags rest, bytes = h.encode flags ++ rest := by
  constructor
  · intro hScan
    unfold scan at hScan
    split at hScan
    · next hSigned =>
      obtain ⟨tail, rfl⟩ := (hasSignature_iff bytes).1 hSigned
      rw [List.drop_left] at hScan
      split at hScan
      · next h' hTake =>
        cases hScan
        obtain ⟨hCount, flags, rest, rfl⟩ := takeBody_eq_some_iff.1 hTake
        refine ⟨hCount, flags, rest, ?_⟩
        simp only [encode, List.append_assoc]
      · cases hScan
    · cases hScan
  · rintro ⟨hCount, flags, rest, rfl⟩
    have hTake := takeBody_eq_some_iff.2 ⟨hCount, flags, rest, rfl⟩
    unfold scan encode
    simp only [List.append_assoc]
    rw [if_pos ((hasSignature_iff _).2 (List.prefix_append _ _)), List.drop_left, hTake]

end Header

end BootStage.Tee
