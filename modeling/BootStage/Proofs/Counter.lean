import BootStage.Counter
import BootStage.Proofs.Program

/-!
# The runs of the counter check

`Counter.Enforced` lists every way in which `Counter.enforce` can go, with its exchanges and its
result; `Counter.enforced_of_runs` says that there are no others.
-/

namespace BootStage.Counter

/-- The exchanges and the result of a check for `v`. -/
inductive Enforced (v : FirmwareVersion) : List Exchange → Except Error Outcome → Prop
  | noIndex (fault : DriverFault) :
      Enforced v [⟨.counterIndex, .error fault⟩] (.error .fuseReadFailed)
  | noWord (index : UInt32) (fault : DriverFault) :
      Enforced v [⟨.counterIndex, .ok index⟩, ⟨.counterWord, .error fault⟩] (.error .fuseReadFailed)
  | tooOld (index stored : UInt32) : v.number < bitCount stored →
      Enforced v [⟨.counterIndex, .ok index⟩, ⟨.counterWord, .ok stored⟩]
        (.error .rollbackAttempted)
  | upToDate (index stored : UInt32) : v.number = bitCount stored →
      Enforced v [⟨.counterIndex, .ok index⟩, ⟨.counterWord, .ok stored⟩] (.ok (.upToDate stored))
  | notProgrammed (index stored : UInt32) (fault : DriverFault) : bitCount stored < v.number →
      Enforced v [⟨.counterIndex, .ok index⟩, ⟨.counterWord, .ok stored⟩,
        ⟨.programFuse (v.advance stored) index, .error fault⟩] (.error .fuseProgramFailed)
  | notReadBack (index stored : UInt32) (fault : DriverFault) : bitCount stored < v.number →
      Enforced v [⟨.counterIndex, .ok index⟩, ⟨.counterWord, .ok stored⟩,
        ⟨.programFuse (v.advance stored) index, .ok ()⟩, ⟨.counterWord, .error fault⟩]
        (.error .fuseReadFailed)
  | miscounted (index stored written : UInt32) : bitCount stored < v.number →
      bitCount written ≠ v.number →
      Enforced v [⟨.counterIndex, .ok index⟩, ⟨.counterWord, .ok stored⟩,
        ⟨.programFuse (v.advance stored) index, .ok ()⟩, ⟨.counterWord, .ok written⟩]
        (.error .fuseProgramFailed)
  | advanced (index stored written : UInt32) : bitCount stored < v.number →
      bitCount written = v.number →
      Enforced v [⟨.counterIndex, .ok index⟩, ⟨.counterWord, .ok stored⟩,
        ⟨.programFuse (v.advance stored) index, .ok ()⟩, ⟨.counterWord, .ok written⟩]
        (.ok (.advanced stored (v.advance stored)))

variable {v : FirmwareVersion} {t : List Exchange}

theorem runs_read {reading : Except Error Reading} (h : Runs (read v) t reading) :
    (∃ fault, t = [⟨.counterIndex, .error fault⟩] ∧ reading = .error .fuseReadFailed) ∨
    (∃ index fault, t = [⟨.counterIndex, .ok index⟩, ⟨.counterWord, .error fault⟩] ∧
      reading = .error .fuseReadFailed) ∨
    ∃ index stored, t = [⟨.counterIndex, .ok index⟩, ⟨.counterWord, .ok stored⟩] ∧
      reading = .ok ⟨index, stored, v⟩ := by
  obtain ⟨found, t₁, t₂, hIndex, hRest, rfl⟩ := runs_seq_iff.1 h
  obtain rfl := runs_ask_iff.1 hIndex
  cases found with
  | error fault =>
    obtain ⟨rfl, rfl⟩ := runs_pure_iff.1 hRest
    exact .inl ⟨fault, rfl, rfl⟩
  | ok index =>
    obtain ⟨word, t₃, t₄, hWord, hLast, rfl⟩ := runs_seq_iff.1 hRest
    obtain rfl := runs_ask_iff.1 hWord
    cases word with
    | error fault =>
      obtain ⟨rfl, rfl⟩ := runs_pure_iff.1 hLast
      exact .inr (.inl ⟨index, fault, rfl, rfl⟩)
    | ok stored =>
      obtain ⟨rfl, rfl⟩ := runs_pure_iff.1 hLast
      exact .inr (.inr ⟨index, stored, rfl, rfl⟩)

theorem runs_record {r : Reading} {target : UInt32} {log log' : Log.Ring}
    {result : Except Error Outcome} (h : Runs (record r target log) t (result, log')) :
    (∃ fault, t = [⟨.programFuse target r.index, .error fault⟩] ∧
      result = .error .fuseProgramFailed) ∨
    (∃ fault, t = [⟨.programFuse target r.index, .ok ()⟩, ⟨.counterWord, .error fault⟩] ∧
      result = .error .fuseReadFailed) ∨
    ∃ written, t = [⟨.programFuse target r.index, .ok ()⟩, ⟨.counterWord, .ok written⟩] ∧
      result = if bitCount written = r.version.number then .ok (.advanced r.stored target)
        else .error .fuseProgramFailed := by
  obtain ⟨reply, t₁, t₂, hProgram, hRest, rfl⟩ := runs_seq_iff.1 h
  obtain rfl := runs_ask_iff.1 hProgram
  cases reply with
  | error fault =>
    obtain ⟨rfl, hEq⟩ := runs_pure_iff.1 hRest
    cases hEq
    exact .inl ⟨fault, rfl, rfl⟩
  | ok _ =>
    obtain ⟨word, t₃, t₄, hWord, hLast, rfl⟩ := runs_seq_iff.1 hRest
    obtain rfl := runs_ask_iff.1 hWord
    cases word with
    | error fault =>
      obtain ⟨rfl, hEq⟩ := runs_pure_iff.1 hLast
      cases hEq
      exact .inr (.inl ⟨fault, rfl, rfl⟩)
    | ok written =>
      refine .inr (.inr ⟨written, ?_⟩)
      dsimp only at hLast
      split at hLast
      · next hCount =>
        obtain ⟨rfl, hEq⟩ := runs_pure_iff.1 hLast
        cases hEq
        exact ⟨rfl, (if_pos hCount).symm⟩
      · next hCount =>
        obtain ⟨rfl, hEq⟩ := runs_pure_iff.1 hLast
        cases hEq
        exact ⟨rfl, (if_neg hCount).symm⟩

theorem enforced_of_runs {log log' : Log.Ring} {result : Except Error Outcome}
    (h : Runs (enforce v log) t (result, log')) : Enforced v t result := by
  obtain ⟨reading, t₁, t₂, hRead, hRest, rfl⟩ := runs_seq_iff.1 h
  rcases runs_read hRead with ⟨fault, rfl, rfl⟩ | ⟨index, fault, rfl, rfl⟩ |
    ⟨index, stored, rfl, rfl⟩
  · obtain ⟨rfl, hEq⟩ := runs_pure_iff.1 hRest
    cases hEq
    exact .noIndex fault
  · obtain ⟨rfl, hEq⟩ := runs_pure_iff.1 hRest
    cases hEq
    exact .noWord index fault
  · rcases Nat.lt_trichotomy v.number (bitCount stored) with hOld | hSame | hNew
    · have hCheck : (⟨index, stored, v⟩ : Reading).check = .error .rollbackAttempted := by
        simp [Reading.check, FirmwareVersion.isOlderThan, hOld]
      simp only [hCheck] at hRest
      obtain ⟨rfl, hEq⟩ := runs_pure_iff.1 hRest
      cases hEq
      exact .tooOld index stored hOld
    · have hCheck : (⟨index, stored, v⟩ : Reading).check = .ok () := by
        simp [Reading.check, FirmwareVersion.isOlderThan, hSame]
      have hTarget : (⟨index, stored, v⟩ : Reading).target? = none := by
        simp [Reading.target?, FirmwareVersion.isRecordedBy, hSame]
      simp only [hCheck, hTarget] at hRest
      obtain ⟨rfl, hEq⟩ := runs_pure_iff.1 hRest
      cases hEq
      exact .upToDate index stored hSame
    · have hCheck : (⟨index, stored, v⟩ : Reading).check = .ok () := by
        simp [Reading.check, FirmwareVersion.isOlderThan, Nat.le_of_lt hNew]
      have hTarget : (⟨index, stored, v⟩ : Reading).target? = some (v.advance stored) := by
        simp [Reading.target?, FirmwareVersion.isRecordedBy, hNew]
      simp only [hCheck, hTarget] at hRest
      rcases runs_record hRest with ⟨fault, rfl, rfl⟩ | ⟨fault, rfl, rfl⟩ | ⟨written, rfl, rfl⟩
      · exact .notProgrammed index stored fault hNew
      · exact .notReadBack index stored fault hNew
      · split
        · next hCount => exact .advanced index stored written hNew hCount
        · next hCount => exact .miscounted index stored written hNew hCount

/-- Whatever stops a check is fatal. -/
theorem Enforced.isFatal {e : Error} (h : Enforced v t (.error e)) : e.isFatal = true := by
  cases h <;> rfl

end BootStage.Counter
