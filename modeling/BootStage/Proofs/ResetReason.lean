import BootStage.ResetReason

/-!
# The flag that decides the reset reason

The flags are looked at in the order of `precedence`, and the first one that counts decides
(`deciding?`).  A set flag counts, except that the reset pad hides both exits from standby:

    ofStatus status = reasonOf (status.has .pad) flag     if `flag` is the first that counts
    ofStatus status = unknown                             if no bit is set
    ofStatus status = unidentified                        if only bits without a name are set
                                                                                       (ofStatus_eq)

A flag may be hidden and the status still has one that counts (`deciding?_eq_none_iff`), because the
pad that hides it counts itself.  So the reason belongs to a flag whenever a named flag is set, and
to the deciding one (`flag?_ofStatus`), from which everything else follows
(`ofStatus_sound_and_complete`).
-/

namespace BootStage

namespace Flags

variable {φ : Type} {s : Flags φ}

theorem isEmpty_iff : s.isEmpty ↔ s.bits = 0 := by
  simp [isEmpty]

theorem not_has_of_isEmpty [Flag φ] (h : s.isEmpty) (f : φ) : ¬ s.has f := by
  simp [has, isEmpty_iff.1 h]

end Flags

namespace ResetReason

variable {status other : Flags ResetFlag} {flag : ResetFlag}

/-- The flag whose cause a reason is. -/
def flag? : ResetReason → Option ResetFlag
  | unknown => none
  | standby => some .standby
  | cStandby => some .cStandby
  | powerOn => some .powerOn
  | brownout => some .brownout
  | mcuSystem => some .mcuSystem
  | mcuLocal => some .mcuSystem
  | mpuSystem => some .mpuSystem
  | hseClockFailure => some .hseClockFailure
  | iwdg1 => some .iwdg1
  | iwdg2 => some .iwdg2
  | mpuProcessor0 => some .mpuProcessor0
  | mpuProcessor1 => some .mpuProcessor1
  | pad => some .pad
  | vddCoreFailure => some .vddCoreFailure
  | unidentified => none

/-! ## The order in which the flags are looked at -/

/-- Every flag, the one that is looked at first in front. -/
def precedence : List ResetFlag :=
  [.standby, .cStandby, .powerOn, .brownout, .mcuSystem] ++ remaining.map (·.1)

/-- The reset pad hides the flag. -/
def hiddenByPad : ResetFlag → Bool
  | .standby | .cStandby => true
  | _ => false

/-- The flag is set and not hidden. -/
def counts (status : Flags ResetFlag) (flag : ResetFlag) : Bool :=
  status.has flag && !(status.has .pad && hiddenByPad flag)

/-- The first flag that counts. -/
def deciding? (status : Flags ResetFlag) : Option ResetFlag := precedence.find? (counts status)

/-- The reason that a flag stands for, with or without the reset pad. -/
def reasonOf (held : Bool) : ResetFlag → ResetReason
  | .powerOn => powerOn
  | .brownout => brownout
  | .pad => pad
  | .hseClockFailure => hseClockFailure
  | .vddCoreFailure => vddCoreFailure
  | .mpuSystem => mpuSystem
  | .mcuSystem => if held then mcuSystem else mcuLocal
  | .iwdg1 => iwdg1
  | .iwdg2 => iwdg2
  | .standby => standby
  | .cStandby => cStandby
  | .mpuProcessor0 => mpuProcessor0
  | .mpuProcessor1 => mpuProcessor1

theorem counts_iff : counts status flag ↔
    status.has flag ∧ (hiddenByPad flag → ¬ status.has .pad) := by
  cases hHidden : hiddenByPad flag <;> simp [counts, hHidden]

theorem counts_of_shown (h : hiddenByPad flag = false) : counts status flag ↔ status.has flag := by
  simp [counts_iff, h]

theorem counts_of_hidden (h : hiddenByPad flag) :
    counts status flag ↔ ¬ status.has .pad ∧ status.has flag := by
  rw [counts_iff, and_comm]
  simp [h]

/-- The reason that some of the flags give. -/
def reasonAmong (status : Flags ResetFlag) (flags : List ResetFlag) : ResetReason :=
  match flags.find? (counts status) with
  | some flag => reasonOf (status.has .pad) flag
  | none => if status.isEmpty then unknown else unidentified

theorem reasonAmong_cons {flags : List ResetFlag} {c : Prop} [Decidable c]
    (h : counts status flag ↔ c) :
    reasonAmong status (flag :: flags) =
      if c then reasonOf (status.has .pad) flag else reasonAmong status flags := by
  unfold reasonAmong
  by_cases hCounts : counts status flag
  · rw [List.find?_cons_of_pos hCounts, if_pos (h.1 hCounts)]
  · rw [List.find?_cons_of_neg hCounts, if_neg (mt h.2 hCounts)]

theorem mem_remaining (held : Bool) :
    ∀ p ∈ remaining, hiddenByPad p.1 = false ∧ reasonOf held p.1 = p.2 := by
  cases held <;> decide

/-- The flags that come last are kept with their reasons. -/
theorem reasonAmong_remaining {l : List (ResetFlag × ResetReason)} (hSub : l ⊆ remaining) :
    reasonAmong status (l.map (·.1)) =
      match l.find? fun p => status.has p.1 with
      | some (_, reason) => reason
      | none => if status.isEmpty then unknown else unidentified := by
  induction l with
  | nil => rfl
  | cons p l ih =>
    obtain ⟨hShown, hReason⟩ := mem_remaining (status.has .pad) p (hSub List.mem_cons_self)
    rw [List.map_cons, reasonAmong_cons (counts_of_shown hShown), hReason,
      ih fun q hq => hSub (List.mem_cons_of_mem p hq)]
    by_cases hSet : status.has p.1
    · simp only [List.find?_cons, hSet, if_true]
    · simp only [List.find?_cons, hSet, Bool.false_eq_true, if_false]

theorem reasonAmong_of_unnamed (h : ∀ flag, ¬ status.has flag) (flags : List ResetFlag) :
    reasonAmong status flags = if status.isEmpty then unknown else unidentified := by
  have hNone : flags.find? (counts status) = none :=
    List.find?_eq_none.2 fun flag _ hCounts => h flag (counts_iff.1 hCounts).1
  simp only [reasonAmong, hNone]

/-- The reason is that of the first flag that counts. -/
theorem ofStatus_eq (status : Flags ResetFlag) :
    ofStatus status = reasonAmong status precedence := by
  unfold ofStatus
  by_cases hEmpty : status.isEmpty
  · rw [if_pos hEmpty, reasonAmong_of_unnamed (Flags.not_has_of_isEmpty hEmpty), if_pos hEmpty]
  · rw [if_neg hEmpty]
    show _ = reasonAmong status (.standby :: .cStandby :: .powerOn :: .brownout :: .mcuSystem ::
      remaining.map (·.1))
    rw [reasonAmong_cons (counts_of_hidden rfl), reasonAmong_cons (counts_of_hidden rfl),
      reasonAmong_cons (counts_of_shown rfl), reasonAmong_cons (counts_of_shown rfl),
      reasonAmong_cons (counts_of_shown rfl), reasonAmong_remaining (List.Subset.refl _),
      if_neg hEmpty]
    rfl

/-! ## What the deciding flag is -/

theorem mem_precedence (flag : ResetFlag) : flag ∈ precedence := by
  cases flag <;> decide

/-- The reset pad counts, so a status with a named flag has one that counts. -/
theorem deciding?_eq_none_iff : deciding? status = none ↔ ∀ flag, ¬ status.has flag := by
  unfold deciding?
  rw [List.find?_eq_none]
  constructor
  · intro h flag hSet
    have hPad : ¬ status.has .pad := mt (counts_of_shown rfl).2 (h .pad (mem_precedence _))
    exact h flag (mem_precedence _) (counts_iff.2 ⟨hSet, fun _ => hPad⟩)
  · intro h flag _ hCounts
    exact h flag (counts_iff.1 hCounts).1

theorem counts_of_deciding? (h : deciding? status = some flag) : counts status flag :=
  List.find?_some h

/-- No flag that is looked at before the deciding one counts. -/
theorem not_counts_of_before {before after : List ResetFlag}
    (hSplit : precedence = before ++ flag :: after) (h : deciding? status = some flag) :
    ∀ earlier ∈ before, ¬ counts status earlier := by
  have hNodup : precedence.Nodup := by decide
  unfold deciding? at h
  rw [hSplit] at h hNodup
  rw [List.find?_append] at h
  cases hFound : before.find? (counts status) with
  | none => exact List.find?_eq_none.1 hFound
  | some found =>
    rw [hFound] at h
    obtain rfl : found = flag := Option.some.inj h
    have hTwice := List.mem_of_find?_eq_some hFound
    exact absurd rfl ((List.nodup_append.1 hNodup).2.2 found hTwice found List.mem_cons_self)

theorem deciding?_congr (h : ∀ flag, other.has flag = status.has flag) :
    deciding? other = deciding? status := by
  have hCounts : counts other = counts status := by
    funext flag
    unfold counts
    rw [h, h]
  unfold deciding?
  rw [hCounts]

theorem flag?_reasonOf (held : Bool) (flag : ResetFlag) :
    (reasonOf held flag).flag? = some flag := by
  cases held <;> cases flag <;> rfl

/-! ## What the reason says of the status -/

theorem ofStatus_of_deciding? (h : deciding? status = some flag) :
    ofStatus status = reasonOf (status.has .pad) flag := by
  rw [ofStatus_eq]
  unfold deciding? at h
  simp only [reasonAmong, h]

theorem ofStatus_of_unnamed (h : ∀ flag, ¬ status.has flag) :
    ofStatus status = if status.isEmpty then unknown else unidentified := by
  rw [ofStatus_eq, reasonAmong_of_unnamed h]

/-- The reason belongs to the flag that decides, and to none if none is set. -/
theorem flag?_ofStatus (status : Flags ResetFlag) : (ofStatus status).flag? = deciding? status := by
  cases hDeciding : deciding? status with
  | some flag => rw [ofStatus_of_deciding? hDeciding, flag?_reasonOf]
  | none =>
    rw [ofStatus_of_unnamed (deciding?_eq_none_iff.1 hDeciding)]
    split <;> rfl

theorem unnamed_iff : (ofStatus status).flag? = none ↔ ∀ flag, ¬ status.has flag := by
  rw [flag?_ofStatus, deciding?_eq_none_iff]

theorem ofStatus_eq_unknown_iff : ofStatus status = unknown ↔ status.isEmpty := by
  constructor
  · intro h
    have hUnnamed : ∀ flag, ¬ status.has flag := unnamed_iff.1 (by rw [h]; rfl)
    rw [ofStatus_of_unnamed hUnnamed] at h
    by_cases hEmpty : status.isEmpty
    · exact hEmpty
    · rw [if_neg hEmpty] at h
      cases h
  · intro hEmpty
    rw [ofStatus_of_unnamed (Flags.not_has_of_isEmpty hEmpty), if_pos hEmpty]

theorem ofStatus_eq_unidentified_iff :
    ofStatus status = unidentified ↔ ¬ status.isEmpty ∧ ∀ flag, ¬ status.has flag := by
  constructor
  · intro h
    refine ⟨fun hEmpty => ?_, unnamed_iff.1 (by rw [h]; rfl)⟩
    rw [ofStatus_eq_unknown_iff.2 hEmpty] at h
    cases h
  · rintro ⟨hBits, hUnnamed⟩
    rw [ofStatus_of_unnamed hUnnamed, if_neg hBits]

theorem eq_of_flag?_eq_none {reason : ResetReason} (h : reason.flag? = none) :
    reason = unknown ∨ reason = unidentified := by
  cases reason <;> simp [flag?] at h ⊢

theorem has_of_flag?_eq_some (h : (ofStatus status).flag? = some flag) : status.has flag := by
  rw [flag?_ofStatus] at h
  exact (counts_iff.1 (counts_of_deciding? h)).1

theorem not_has_pad_of_hidden (h : (ofStatus status).flag? = some flag)
    (hHidden : hiddenByPad flag) : ¬ status.has .pad := by
  rw [flag?_ofStatus] at h
  exact (counts_iff.1 (counts_of_deciding? h)).2 hHidden

/-- The reset pad tells the two resets by the coprocessor apart. -/
theorem ofStatus_of_mcuSystem (h : (ofStatus status).flag? = some .mcuSystem) :
    (ofStatus status = mcuSystem ↔ status.has .pad) ∧
      ¬ status.has .powerOn ∧ ¬ status.has .brownout := by
  rw [flag?_ofStatus] at h
  have hSplit : precedence = [.standby, .cStandby, .powerOn, .brownout] ++
      .mcuSystem :: remaining.map (·.1) := rfl
  have hBefore := not_counts_of_before hSplit h
  rw [ofStatus_of_deciding? h]
  refine ⟨?_, ?_, ?_⟩
  · cases status.has .pad <;> decide
  · exact mt (counts_of_shown rfl).2 (hBefore _ (by decide))
  · exact mt (counts_of_shown rfl).2 (hBefore _ (by decide))

/-- Two words with the same named flags have the same reason, if there are any. -/
theorem ofStatus_congr (hNamed : ∃ flag, status.has flag)
    (h : ∀ flag, other.has flag = status.has flag) : ofStatus other = ofStatus status := by
  cases hDeciding : deciding? status with
  | none =>
    obtain ⟨flag, hSet⟩ := hNamed
    exact absurd hSet (deciding?_eq_none_iff.1 hDeciding flag)
  | some flag =>
    rw [ofStatus_of_deciding? hDeciding,
      ofStatus_of_deciding? ((deciding?_congr h).trans hDeciding), h]

/-- The reason is right for every status word: none without a flag is made up, none with a flag is
missed, the two flags that the reset pad hides are reported without it only, and the bits without a
name make no difference as long as a named one is set.  The log that the reason is written to makes
none either. -/
theorem ofStatus_sound_and_complete (status : Flags ResetFlag) :
    (ofStatus status = unknown ↔ status.bits = 0) ∧
    (ofStatus status = unidentified ↔ status.bits ≠ 0 ∧ ∀ flag, ¬ status.has flag) ∧
    (ofStatus status ≠ unknown → ofStatus status ≠ unidentified →
      ∃ flag, (ofStatus status).flag? = some flag ∧ status.has flag) ∧
    (ofStatus status = standby ∨ ofStatus status = cStandby → ¬ status.has .pad) ∧
    (ofStatus status = mcuSystem ∨ ofStatus status = mcuLocal →
      (ofStatus status = mcuSystem ↔ status.has .pad) ∧
        ¬ status.has .powerOn ∧ ¬ status.has .brownout) ∧
    (∀ other : Flags ResetFlag, (∃ flag, status.has flag) →
      (∀ flag, other.has flag = status.has flag) → ofStatus other = ofStatus status) ∧
    ∀ log, (report status log).1 = ofStatus status := by
  rw [Ne, ← Flags.isEmpty_iff]
  refine ⟨ofStatus_eq_unknown_iff, ofStatus_eq_unidentified_iff, ?_, ?_, ?_,
    fun _ => ofStatus_congr, fun _ => rfl⟩
  · intro hKnown hIdentified
    cases hFlag : (ofStatus status).flag? with
    | some flag => exact ⟨flag, rfl, has_of_flag?_eq_some hFlag⟩
    | none =>
      rcases eq_of_flag?_eq_none hFlag with h | h
      · exact absurd h hKnown
      · exact absurd h hIdentified
  · rintro (h | h)
    · have hFlag : (ofStatus status).flag? = some .standby := by rw [h]; rfl
      exact not_has_pad_of_hidden hFlag rfl
    · have hFlag : (ofStatus status).flag? = some .cStandby := by rw [h]; rfl
      exact not_has_pad_of_hidden hFlag rfl
  · rintro (h | h)
    · exact ofStatus_of_mcuSystem (by rw [h]; rfl)
    · exact ofStatus_of_mcuSystem (by rw [h]; rfl)

/-- An exit from standby that the pad hides, with and without a bit that has no name: the pad is the
reason. -/
theorem hidden_exit_is_pad :
    ofStatus ⟨0x80000804⟩ = ofStatus ⟨0x00000804⟩ ∧ ofStatus ⟨0x00000804⟩ = pad := by
  obtain ⟨-, -, -, -, -, hCongr, -⟩ := ofStatus_sound_and_complete ⟨0x00000804⟩
  refine ⟨hCongr ⟨0x80000804⟩ ⟨.pad, by decide⟩ fun flag => ?_, by decide⟩
  cases flag <;> decide

end ResetReason

end BootStage
