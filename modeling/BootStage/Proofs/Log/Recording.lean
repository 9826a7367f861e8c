import BootStage.Log.Ring

/-!
# What a log records

A log is told lines one after the other, and those that pass its threshold become entries.  As long as
there is room for all of them, none is evicted: the entries stay numbered from zero on, and what is
new is pending.

    (r.push e).unflushed = r.unflushed ++ [e]                                  (unflushed_push)
    r unbroken, room for the lines → r.tell lines is r and their entries       (Unbroken.recorded)
-/

namespace BootStage.Log

/-! ## Messages -/

/-- Pieces that fit make the text that they are when joined. -/
theorem Message.text_appendPieces {m : Message} {pieces : List String}
    (h : (m.text ++ String.join pieces).utf8ByteSize ≤ messageCapacity) :
    (m.appendPieces pieces).text = m.text ++ String.join pieces := by
  induction pieces generalizing m with
  | nil =>
    rw [String.join_nil, String.append_empty]
    rfl
  | cons piece pieces ih =>
    rw [String.join_cons, ← String.append_assoc] at h ⊢
    have hFits : (m.text ++ piece).utf8ByteSize ≤ messageCapacity := by
      rw [String.utf8ByteSize_append] at h
      omega
    have hAppend : m.append? piece = some ⟨m.text ++ piece, hFits⟩ := dif_pos hFits
    unfold appendPieces
    rw [hAppend]
    exact ih h

theorem Message.text_ofPieces {pieces : List String}
    (h : (String.join pieces).utf8ByteSize ≤ messageCapacity) :
    (ofPieces pieces).text = String.join pieces := by
  have hText : Message.empty.text ++ String.join pieces = String.join pieces := String.empty_append
  unfold ofPieces
  rw [text_appendPieces (hText.symm ▸ h), hText]

/-! ## One entry -/

namespace Ring

variable {r : Ring} {level : Level}

theorem unflushed_push (r : Ring) (e : Entry) : (r.push e).unflushed = r.unflushed ++ [e] := by
  have hCount : (r.push e).length - (r.push e).pending = r.length - r.pending := by
    rw [length_push]
    show r.length + 1 - (r.pending + 1) = _
    omega
  unfold unflushed
  rw [hCount]
  exact List.drop_append_of_le_length (Nat.sub_le _ _)

/-- As many entries as are pending are handed over from the end. -/
theorem unflushed_of_append {old new : List Entry} (hEntries : r.entries = old ++ new)
    (hPending : r.pending = new.length) : r.unflushed = new := by
  unfold unflushed length
  rw [hEntries, hPending, List.length_append, Nat.add_sub_cancel, List.drop_left]

/-- An entry that is recorded is the last of those pending, whatever was pending before. -/
theorem unflushed_record (h : level.passes r.threshold = true) (source : String)
    (pieces : List String) : ∃ earlier, (r.record level source pieces).unflushed =
      earlier ++ [⟨level, r.sequence, source, .ofPieces pieces⟩] := by
  unfold record write
  rw [if_pos h]
  exact ⟨_, unflushed_push _ _⟩

/-! ## Lines -/

end Ring

/-- A message that a log is told. -/
structure Line where
  level : Level
  source : String
  pieces : List String

/-- Level and message of a line. -/
def Line.content (line : Line) : Level × Message := (line.level, .ofPieces line.pieces)

def Entry.content (e : Entry) : Level × Message := (e.level, e.message)

namespace Ring

variable {r : Ring} {lines : List Line}

/-- Tell the log lines one after the other. -/
def tell (r : Ring) : List Line → Ring
  | [] => r
  | line :: lines => (r.record line.level line.source line.pieces).tell lines

theorem tell_append (r : Ring) (lines lines' : List Line) :
    r.tell (lines ++ lines') = (r.tell lines).tell lines' := by
  induction lines generalizing r with
  | nil => rfl
  | cons line lines ih => exact ih _

theorem recordAll_eq_tell (r : Ring) (source : String) (messages : List (Level × List String)) :
    r.recordAll source messages =
      r.tell (messages.map fun message => ⟨message.1, source, message.2⟩) := by
  induction messages generalizing r with
  | nil => rfl
  | cons message messages ih => exact ih _

/-- Nothing that was recorded was lost: the entries are numbered from zero on, and their number is the
next. -/
structure Unbroken (r : Ring) : Prop where
  numbered : r.entries.map (·.sequence.toNat) = List.range r.length
  next : r.sequence.toNat = r.length

/-- The log `r'` is `r` and the entries made of those lines that pass the threshold; the new entries
are pending. -/
structure Recorded (r : Ring) (lines : List Line) (r' : Ring) : Prop where
  entries : ∃ new, r'.entries = r.entries ++ new ∧ r'.pending = r.pending + new.length ∧
    new.map (·.content) =
      (lines.filter fun line => line.level.passes r.threshold).map (·.content)
  threshold : r'.threshold = r.threshold
  length_le : r'.length ≤ r.length + lines.length
  unbroken : r'.Unbroken

theorem Unbroken.empty (threshold : Level) : (Ring.empty threshold).Unbroken := ⟨rfl, rfl⟩

theorem Unbroken.push (h : r.Unbroken) (hRoom : r.length < ringCapacity) {e : Entry}
    (hNumber : e.sequence = r.sequence) : (r.push e).Unbroken where
  numbered := by
    rw [length_push, List.range_succ]
    show (r.entries ++ [e]).map (·.sequence.toNat) = _
    rw [List.map_append, h.numbered, List.map_singleton, hNumber, h.next]
  next := by
    have hNext := h.next
    have hCapacity : ringCapacity = 64 := rfl
    show (r.sequence + 1).toNat = _
    rw [length_push, UInt32.toNat_add, hNext]
    show (r.length + 1) % 4294967296 = r.length + 1
    omega

theorem Recorded.append {r' r'' : Ring} {lines' : List Line} (h : r.Recorded lines r')
    (h' : r'.Recorded lines' r'') : r.Recorded (lines ++ lines') r'' where
  entries := by
    obtain ⟨new, hEntries, hPending, hContent⟩ := h.entries
    obtain ⟨new', hEntries', hPending', hContent'⟩ := h'.entries
    refine ⟨new ++ new', ?_, ?_, ?_⟩
    · rw [hEntries', hEntries, List.append_assoc]
    · rw [hPending', hPending, List.length_append]
      omega
    · rw [List.filter_append, List.map_append, List.map_append, hContent, hContent', h.threshold]
  threshold := h'.threshold.trans h.threshold
  length_le := by
    have hFirst := h.length_le
    have hSecond := h'.length_le
    rw [List.length_append]
    omega
  unbroken := h'.unbroken

/-- A line for which there is room becomes an entry, and no entry goes, or it does not pass the
threshold. -/
theorem Unbroken.recorded_singleton (h : r.Unbroken) (hRoom : r.length < ringCapacity)
    (line : Line) : r.Recorded [line] (r.record line.level line.source line.pieces) := by
  by_cases hPasses : line.level.passes r.threshold = true
  · let e : Entry := ⟨line.level, r.sequence, line.source, .ofPieces line.pieces⟩
    have hNotFull : ¬ r.isFull = true := by
      simp only [isFull, decide_eq_true_eq]
      omega
    have hRecord : r.record line.level line.source line.pieces = r.push e := by
      unfold record write
      rw [if_pos hPasses, if_neg hNotFull]
    rw [hRecord]
    have hFilter : [line].filter (fun line => line.level.passes r.threshold) = [line] :=
      List.filter_cons_of_pos hPasses
    refine ⟨⟨[e], rfl, rfl, ?_⟩, rfl, Nat.le_of_eq (length_push r e), h.push hRoom rfl⟩
    rw [hFilter]
    rfl
  · have hRecord : r.record line.level line.source line.pieces = r := if_neg hPasses
    rw [hRecord]
    have hFilter : [line].filter (fun line => line.level.passes r.threshold) = [] :=
      List.filter_cons_of_neg hPasses
    refine ⟨⟨[], (List.append_nil _).symm, rfl, ?_⟩, rfl, Nat.le_add_right _ _, h⟩
    rw [hFilter]
    rfl

/-- Lines for which there is room are recorded, and nothing is lost. -/
theorem Unbroken.recorded (h : r.Unbroken) (hRoom : r.length + lines.length ≤ ringCapacity) :
    r.Recorded lines (r.tell lines) := by
  induction lines generalizing r with
  | nil => exact ⟨⟨[], (List.append_nil _).symm, rfl, rfl⟩, rfl, Nat.le_refl _, h⟩
  | cons line lines ih =>
    rw [List.length_cons] at hRoom
    have hFirst := h.recorded_singleton (by omega) line
    have hLength : _ ≤ r.length + 1 := hFirst.length_le
    exact hFirst.append (ih hFirst.unbroken (by omega))

end Ring

end BootStage.Log
