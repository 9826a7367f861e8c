import BootStage.Log.Entry

/-!
# Messages of whole pieces

A message that is made of a whole text holds as much of it as there is room for, to the character
(`Text.prefix_clipChars`).  A message that is formatted piece by piece holds whole pieces only: the
first one for which there is no room ends it, however much of that piece there was room for.

    (ofPieces pieces).text = String.join kept, and the next piece does not fit
    (ofPieces pieces).text is an initial part of (ofText (String.join pieces)).text
    the two are the same ↔ not even the next character fits

All three are `logged_message_keeps_whole_pieces`, and `logged_message_stops_short` is a message that
could hold 121 bytes more.
-/

namespace BootStage

namespace Text

variable {limit : Nat} {cs ds text : List Char}

theorem utf8Length_toList (s : String) : utf8Length s.toList = s.utf8ByteSize := by
  rw [← utf8ByteSize_ofList, String.ofList_toList]

theorem toList_clip (limit : Nat) (s : String) : (clip limit s).toList = clipChars limit s.toList :=
  String.toList_ofList

/-- The cut is the longest initial part that fits. -/
theorem prefix_clipChars (h : cs <+: text) (hFits : utf8Length cs ≤ limit) :
    cs <+: clipChars limit text := by
  induction cs generalizing limit text with
  | nil => exact List.nil_prefix
  | cons c cs ih =>
    obtain ⟨rest, rfl⟩ := h
    rw [utf8Length] at hFits
    have hFirst : c.utf8Size ≤ limit := by omega
    rw [List.cons_append, clipChars, if_pos hFirst]
    exact List.cons_prefix_cons.2 ⟨rfl, ih (List.prefix_append cs rest) (by omega)⟩

/-- A text is cut where it is joined to another exactly if it fits and the next character does not. -/
theorem clipChars_append_eq_left_iff :
    clipChars limit (cs ++ ds) = cs ↔
      utf8Length cs ≤ limit ∧ ∀ d ∈ ds.head?, limit < utf8Length cs + d.utf8Size := by
  induction cs generalizing limit with
  | nil =>
    cases ds with
    | nil => simp [clipChars, utf8Length]
    | cons d ds => simp [clipChars, utf8Length]
  | cons c cs ih =>
    rw [List.cons_append, clipChars, utf8Length]
    by_cases hFirst : c.utf8Size ≤ limit
    · rw [if_pos hFirst, List.cons.injEq, ih]
      constructor
      · rintro ⟨-, hFits, hNext⟩
        refine ⟨by omega, fun d hd => ?_⟩
        have hLast := hNext d hd
        omega
      · rintro ⟨hFits, hNext⟩
        refine ⟨rfl, by omega, fun d hd => ?_⟩
        have hLast := hNext d hd
        omega
    · rw [if_neg hFirst]
      constructor
      · intro h
        cases h
      · rintro ⟨hFits, -⟩
        omega

end Text

namespace Log.Message

open Text (utf8Length)

theorem append?_eq_none_iff {m : Message} {piece : String} :
    m.append? piece = none ↔ messageCapacity < (m.text ++ piece).utf8ByteSize := by
  unfold append?
  split
  · next hFits => simpa using hFits
  · next hFull => simpa using hFull

/-- The pieces are kept up to the first one for which there is no room. -/
theorem exists_kept (m : Message) (pieces : List String) :
    ∃ kept dropped, pieces = kept ++ dropped ∧
      (m.appendPieces pieces).text = m.text ++ String.join kept ∧
      ∀ piece ∈ dropped.head?,
        messageCapacity < (m.text ++ String.join kept ++ piece).utf8ByteSize := by
  induction pieces generalizing m with
  | nil => exact ⟨[], [], rfl, by rw [String.join_nil, String.append_empty]; rfl, nofun⟩
  | cons piece pieces ih =>
    unfold appendPieces
    cases hAppend : m.append? piece with
    | none =>
      refine ⟨[], piece :: pieces, rfl, by rw [String.join_nil, String.append_empty], ?_⟩
      intro next hNext
      obtain rfl : piece = next := Option.some.inj hNext
      rw [String.join_nil, String.append_empty]
      exact append?_eq_none_iff.1 hAppend
    | some m' =>
      obtain ⟨kept, dropped, rfl, hText, hNext⟩ := ih m'
      rw [append?_text hAppend, String.append_assoc, ← String.join_cons] at hText hNext
      exact ⟨piece :: kept, dropped, rfl, hText, hNext⟩

theorem toList_ofText (s : String) :
    (ofText s).text.toList = Text.clipChars messageCapacity s.toList :=
  Text.toList_clip _ s

/-- A message that begins a text is the message of that text exactly if the next character does not
fit. -/
theorem eq_ofText_append_iff (m : Message) (rest : String) :
    m = ofText (m.text ++ rest) ↔
      ∀ c ∈ rest.toList.head?, messageCapacity < m.text.utf8ByteSize + c.utf8Size := by
  rw [Message.ext_iff, ← String.toList_inj, toList_ofText, String.toList_append, eq_comm,
    Text.clipChars_append_eq_left_iff, Text.utf8Length_toList]
  exact and_iff_right m.fits

theorem prefix_ofText_append (m : Message) (rest : String) :
    m.text.toList <+: (ofText (m.text ++ rest)).text.toList := by
  rw [toList_ofText, String.toList_append]
  refine Text.prefix_clipChars (List.prefix_append _ _) ?_
  rw [Text.utf8Length_toList]
  exact m.fits

/-- A message that is formatted from pieces is the text of the pieces that come before the first for
which there is no room.  It never holds more than the message that is cut from the whole text, which
holds the longest initial part that there is room for; and it holds as much exactly if not even the
first character of what was dropped would fit. -/
theorem logged_message_keeps_whole_pieces (pieces : List String) :
    (∀ cs, cs <+: (String.join pieces).toList → utf8Length cs ≤ messageCapacity →
      cs <+: (ofText (String.join pieces)).text.toList) ∧
    (ofPieces pieces).text.toList <+: (ofText (String.join pieces)).text.toList ∧
    ∃ kept dropped, pieces = kept ++ dropped ∧
      (ofPieces pieces).text = String.join kept ∧
      (∀ piece ∈ dropped.head?, messageCapacity < (String.join kept ++ piece).utf8ByteSize) ∧
      (ofPieces pieces = ofText (String.join pieces) ↔
        ∀ c ∈ (String.join dropped).toList.head?,
          messageCapacity < (String.join kept).utf8ByteSize + c.utf8Size) := by
  obtain ⟨kept, dropped, rfl, hText, hNext⟩ := empty.exists_kept pieces
  have hEmpty : empty.text ++ String.join kept = String.join kept := String.empty_append
  rw [hEmpty] at hText hNext
  have hKept : (ofPieces (kept ++ dropped)).text = String.join kept := hText
  have hAll : String.join (kept ++ dropped) =
      (ofPieces (kept ++ dropped)).text ++ String.join dropped := by
    rw [hKept, String.join_append]
  refine ⟨?_, ?_, kept, dropped, rfl, hKept, hNext, ?_⟩
  · intro cs hPrefix hFits
    rw [toList_ofText]
    exact Text.prefix_clipChars hPrefix hFits
  · rw [hAll]
    exact prefix_ofText_append _ _
  · rw [hAll, ← hKept]
    exact eq_ofText_append_iff _ _

/-- A piece that fits, and one of which 121 bytes would fit behind it. -/
def statePieces : List String := ["state: ", String.ofList (List.replicate 122 'x')]

/-- The second piece is dropped as a whole. -/
theorem logged_message_stops_short :
    (ofPieces statePieces).text = "state: " ∧
      (ofText (String.join statePieces)).text =
        "state: " ++ String.ofList (List.replicate 121 'x') ∧
      ofPieces statePieces ≠ ofText (String.join statePieces) := by
  decide +kernel

end Log.Message

end BootStage
