import BootStage.Proofs.Boards
import BootStage.Proofs.Counter.Decision
import BootStage.Proofs.Fuse

/-!
# Checks that burn less than they ask for

A programming may burn some of the bits it was asked for and not others, and may report a failure or
not.  The word that this leaves is no unary pattern any more, and a later check fills other bits in.
Nothing is lost by that: over any number of checks for any versions, the word keeps its bits and
never has more of them than the largest version that was tried, or than it had at first
(`failed_burn_locks_nothing_out`).

What carries it is that a check that finds `w` asks for `version.advance w` and for nothing else, so
that every word along the way lies between `w` and that one (`Enforced.word_between`).
-/

namespace BootStage

namespace Fuse

variable {w w' word bound : UInt32} {t : List Exchange} {words : List UInt32}

/-- Bits are never lost. -/
theorem Follows.burntBits_subset {e : Exchange} (h : Follows w e w') :
    burntBits w ⊆ burntBits w' := by
  cases h with
  | read => exact Finset.Subset.refl _
  | notRead _ => exact Finset.Subset.refl _
  | programmed _ _ =>
    rw [burntBits_or]
    exact Finset.subset_union_left
  | other _ _ => exact Finset.Subset.refl _

/-- A word only gets bits that the fuses were asked for. -/
theorem Follows.subset_burntBits {e : Exchange} {bits : Finset Nat} (h : Follows w e w')
    (hw : burntBits w ⊆ bits)
    (hAsked : ∀ value index, e.request = .programFuse value index → burntBits value ⊆ bits) :
    burntBits w' ⊆ bits := by
  cases h with
  | read => exact hw
  | notRead _ => exact hw
  | @programmed value index burnt _ hBurnt =>
    have hValue := hAsked value index rfl
    have hPart : burntBits burnt ⊆ burntBits value := burntBits_subset_iff.2 hBurnt
    rw [burntBits_or]
    exact Finset.union_subset hw (hPart.trans hValue)
  | other _ _ => exact hw

namespace Evolves

theorem burntBits_subset (h : Evolves w t words w') :
    ∀ word ∈ w' :: words, burntBits w ⊆ burntBits word := by
  induction h with
  | nil w => simp
  | @cons w w₁ w₂ e t words hFirst _ ih =>
    intro word hWord
    have hStep := hFirst.burntBits_subset
    by_cases hSame : word = w₁
    · rw [hSame]
      exact hStep
    · have hLater : word ∈ w₂ :: words := by simp_all
      exact hStep.trans (ih word hLater)

theorem subset_burntBits {bits : Finset Nat} (h : Evolves w t words w') (hw : burntBits w ⊆ bits)
    (hAsked : ∀ e ∈ t, ∀ value index, e.request = .programFuse value index →
      burntBits value ⊆ bits) :
    ∀ word ∈ w' :: words, burntBits word ⊆ bits := by
  induction h with
  | nil w => simpa using hw
  | @cons w w₁ w₂ e t words hFirst _ ih =>
    intro word hWord
    have hStep := hFirst.subset_burntBits hw (hAsked e (by simp))
    by_cases hSame : word = w₁
    · rw [hSame]
      exact hStep
    · have hLater : word ∈ w₂ :: words := by simp_all
      exact ih hStep (fun e' he' => hAsked e' (List.mem_cons_of_mem e he')) word hLater

/-- What the check finds is the word as it is. -/
theorem eq_of_found {index stored : UInt32} (h : Evolves w t words w')
    (hFound : Counter.Found t index stored) : stored = w := by
  obtain ⟨rest, rfl⟩ := hFound
  obtain ⟨_, hRead⟩ := h.of_counterIndex
  exact hRead.of_read.1

end Evolves

end Fuse

namespace Counter

/-! ## One check -/

theorem mem_programmings {t : List Exchange} {e : Exchange} {value index : UInt32} (he : e ∈ t)
    (hRequest : e.request = .programFuse value index) : (value, index) ∈ programmings t := by
  unfold programmings
  rw [List.mem_filterMap]
  exact ⟨e, he, by rw [hRequest]⟩

namespace Enforced

variable {v : FirmwareVersion} {w w' : UInt32} {t : List Exchange} {words : List UInt32}
  {result : Except Error Outcome}

/-- The check asks for nothing but the word that it found, advanced. -/
theorem eq_advance_of_mem (h : Enforced v t result) (hFuse : Fuse.Evolves w t words w')
    {value index : UInt32} (hMem : (value, index) ∈ programmings t) : value = v.advance w := by
  by_cases hNew : ∃ index stored, Found t index stored ∧ bitCount stored < v.number
  · obtain ⟨index', stored, hFound, hLess⟩ := hNew
    obtain rfl := hFuse.eq_of_found hFound
    rw [h.programmings_of_lt hFound hLess] at hMem
    simp_all
  · have hNothing : programmings t = [] := by
      apply h.programmings_eq_nil
      intro index' stored hFound
      by_contra hLess
      exact hNew ⟨index', stored, hFound, by omega⟩
    rw [hNothing] at hMem
    cases hMem

/-- During and after a check the word has its bits still, and at most those of the advanced one. -/
theorem word_between (h : Enforced v t result) (hFuse : Fuse.Evolves w t words w') :
    ∀ word ∈ w' :: words,
      burntBits w ⊆ burntBits word ∧ burntBits word ⊆ burntBits (v.advance w) := by
  intro word hWord
  refine ⟨hFuse.burntBits_subset word hWord, ?_⟩
  have hAdvance : burntBits w ⊆ burntBits (v.advance w) := burntBits_subset_iff.2 (v.and_advance w)
  refine hFuse.subset_burntBits hAdvance ?_ word hWord
  intro e he value index hRequest
  rw [h.eq_advance_of_mem hFuse (mem_programmings he hRequest)]

theorem bitCount_le (h : Enforced v t result) (hFuse : Fuse.Evolves w t words w') :
    ∀ word ∈ w' :: words, bitCount word ≤ max (bitCount w) v.number := by
  intro word hWord
  have hCard := Finset.card_le_card (h.word_between hFuse word hWord).2
  rw [card_burntBits, card_burntBits, v.bitCount_advance] at hCard
  exact hCard

/-- A check that reports that the word was advanced leaves the word that it reports. -/
theorem eq_of_advanced {before after : UInt32} (h : Enforced v t (.ok (.advanced before after)))
    (hFuse : Fuse.Evolves w t words w') : before = w ∧ after = w' := by
  have hBetween := (h.word_between hFuse w' List.mem_cons_self).2
  cases h with
  | advanced index stored written hNew hCount =>
    obtain ⟨_, hRead⟩ := hFuse.of_counterIndex
    obtain ⟨rfl, _, hProgram⟩ := hRead.of_read
    obtain ⟨burnt, _, -, hReadBack⟩ := hProgram.of_programmed
    obtain ⟨rfl, _, hEnd⟩ := hReadBack.of_read
    cases hEnd
    -- What was read back has as many bits as were asked for and no others, so it has all of them.
    have hAsked : bitCount (v.advance before) = v.number := by
      rw [v.bitCount_advance]
      omega
    refine ⟨rfl, (eq_of_and_eq_of_bitCount_le (burntBits_subset_iff.1 hBetween) ?_).symm⟩
    omega

theorem not_rollbackAttempted (h : Enforced v t result) (hFuse : Fuse.Evolves w t words w')
    (hRecorded : bitCount w ≤ v.number) : result ≠ .error .rollbackAttempted := by
  intro hResult
  obtain ⟨index, stored, hFound, hOld⟩ := h.rollbackAttempted_iff.1 hResult
  obtain rfl := hFuse.eq_of_found hFound
  omega

end Enforced

/-! ## Checks in turn -/

/-- One check: the version that it is for, what it exchanges and returns, the fuse word after each
exchange, and the word that it leaves. -/
structure Check where
  version : FirmwareVersion
  exchanges : List Exchange
  words : List UInt32
  result : Except Error Outcome
  left : UInt32

/-- Checks one after the other on one fuse word, which is the first word before them and the second
after them. -/
inductive Checks (w : UInt32) : List Check → UInt32 → Prop
  | nil : Checks w [] w
  | snoc {w' : UInt32} {checks : List Check} {c : Check} {log log' : Log.Ring} :
      Checks w checks w' → Runs (enforce c.version log) c.exchanges (c.result, log') →
      Fuse.Evolves w' c.exchanges c.words c.left → Checks w (checks ++ [c]) c.left

/-- The largest version that was tried. -/
def newest (checks : List Check) : Nat := (checks.map (·.version.number)).foldr max 0

theorem newest_append (checks : List Check) (c : Check) :
    newest (checks ++ [c]) = max (newest checks) c.version.number := by
  unfold newest
  induction checks with
  | nil => simp
  | cons first checks ih => simp_all [Nat.max_assoc]

namespace Checks

variable {w w' : UInt32} {checks earlier later : List Check} {c : Check}

/-- The word keeps its bits, and has no more of them than the largest version, or than at first. -/
theorem within (h : Checks w checks w') :
    burntBits w ⊆ burntBits w' ∧ bitCount w' ≤ max (bitCount w) (newest checks) := by
  induction h with
  | nil => simp [newest]
  | @snoc w' checks c log log' _ hRuns hFuse ih =>
    obtain ⟨hKept, hBound⟩ := ih
    have hEnforced := enforced_of_runs hRuns
    have hStep := hEnforced.bitCount_le hFuse c.left List.mem_cons_self
    refine ⟨hKept.trans (hFuse.burntBits_subset c.left List.mem_cons_self), ?_⟩
    rw [newest_append]
    omega

/-- The part of a sequence up to one of its checks. -/
theorem upTo (h : Checks w checks w') (hSplit : checks = earlier ++ c :: later) :
    ∃ found log log', Checks w earlier found ∧
      Runs (enforce c.version log) c.exchanges (c.result, log') ∧
        Fuse.Evolves found c.exchanges c.words c.left := by
  induction h generalizing later with
  | nil => simp at hSplit
  | @snoc found checks last log log' hEarlier hRuns hFuse ih =>
    rcases List.eq_nil_or_concat later with rfl | ⟨later, last', rfl⟩
    · obtain ⟨rfl, rfl⟩ : checks = earlier ∧ last = c := by simpa using hSplit
      exact ⟨found, log, log', hEarlier, hRuns, hFuse⟩
    · have hSplit' : checks ++ [last] = (earlier ++ c :: later) ++ [last'] := by simpa using hSplit
      exact ih (List.append_inj_left' hSplit' rfl)

end Checks

/-- What a check does to a device whose word was `w` before the checks `earlier`. -/
structure Harmless (w : UInt32) (earlier : List Check) (c : Check) : Prop where
  keeps : ∀ word ∈ c.left :: c.words, w &&& word = w
  bounded : ∀ word ∈ c.left :: c.words,
    bitCount word ≤ max (bitCount w) (newest (earlier ++ [c]))
  admits : bitCount w ≤ c.version.number → newest earlier ≤ c.version.number →
    c.result ≠ .error .rollbackAttempted
  advanced : ∀ before after, c.result = .ok (.advanced before after) → c.left = after

/-- Over any number of checks, for any versions, on fuses that may burn any part of what they are
asked for and report it as they like: at each moment the word has all bits that it had at first, and
no more than the largest version tried so far or than it had at first; firmware that is at least as
new as both is not turned away; and a word that is reported as advanced is the one reported. -/
theorem failed_burn_locks_nothing_out {w w' : UInt32} {checks : List Check}
    (h : Checks w checks w') :
    ∀ earlier c later, checks = earlier ++ c :: later → Harmless w earlier c := by
  intro earlier c later hSplit
  obtain ⟨found, log, log', hEarlier, hRuns, hFuse⟩ := h.upTo hSplit
  have hEnforced := enforced_of_runs hRuns
  obtain ⟨hKept, hBound⟩ := hEarlier.within
  refine ⟨?_, ?_, ?_, ?_⟩
  · intro word hWord
    exact burntBits_subset_iff.1 (hKept.trans (hFuse.burntBits_subset word hWord))
  · intro word hWord
    have hStep := hEnforced.bitCount_le hFuse word hWord
    rw [newest_append]
    omega
  · intro hFirst hNewest
    exact hEnforced.not_rollbackAttempted hFuse (by omega)
  · intro before after hResult
    rw [hResult] at hEnforced
    exact (hEnforced.eq_of_advanced hFuse).2.symm

/-- A board whose fuses follow the law answers any check. -/
theorem exists_check {σ : Type} {board : Board σ} (word : σ → UInt32)
    (hBoard : ∀ s q, Fuse.Follows (word s) ⟨q, (board.respond s q).1⟩ (word (board.respond s q).2))
    (version : FirmwareVersion) (log : Log.Ring) (s : σ) :
    ∃ c : Check, c.version = version ∧ c.result = ((enforce version log).exec board s).1.1 ∧
      c.left = word ((enforce version log).exec board s).2 ∧
        (∃ log', Runs (enforce version log) c.exchanges (c.result, log')) ∧
          Fuse.Evolves (word s) c.exchanges c.words c.left := by
  obtain ⟨words, hFuse⟩ := Fuse.exists_evolves word hBoard (enforce version log) s
  exact ⟨⟨version, _, words, _, _⟩, rfl, rfl, rfl,
    ⟨_, (enforce version log).runs_transcript board s⟩, hFuse⟩

theorem shakyFuseBoard_follows (s : UInt32 × Bool) (q : Request) :
    Fuse.Follows s.1 ⟨q, (shakyFuseBoard.respond s q).1⟩ (shakyFuseBoard.respond s q).2.1 := by
  obtain ⟨word, programmed⟩ := s
  cases q with
  | counterWord => exact .read word
  | programFuse value index =>
    cases programmed with
    | true => exact .programmed word _ UInt32.and_self
    | false =>
      refine .programmed word _ ?_
      rw [UInt32.and_comm value, UInt32.and_assoc, UInt32.and_self]
  | _ => exact .other word nofun nofun

/-- On a new device whose first programming burns the third bit only, the check for version 3 fails,
a check for version 2 then burns another bit, and the check for version 3 still gets through. -/
theorem shaky_fuses_admit_version_3 : ∃ first second third : Check,
    Checks 0 [first, second, third] 0b111 ∧
    first.version.number = 3 ∧ first.result = .error .fuseProgramFailed ∧ first.left = 0b100 ∧
    second.version.number = 2 ∧ second.result = .ok (.advanced 0b100 0b101) ∧
    third.version.number = 3 ∧ third.result = .ok (.advanced 0b101 0b111) ∧
    Harmless 0 [first, second] third := by
  obtain ⟨first, hVersion, hResult, hLeft, ⟨_, hRuns⟩, hFuse⟩ := exists_check Prod.fst
    shakyFuseBoard_follows ⟨3, by decide⟩ (.empty .info) (0, false)
  obtain ⟨second, hVersion', hResult', hLeft', ⟨_, hRuns'⟩, hFuse'⟩ := exists_check Prod.fst
    shakyFuseBoard_follows ⟨2, by decide⟩ (.empty .info) (0b100, true)
  obtain ⟨third, hVersion'', hResult'', hLeft'', ⟨_, hRuns''⟩, hFuse''⟩ := exists_check Prod.fst
    shakyFuseBoard_follows ⟨3, by decide⟩ (.empty .info) (0b101, true)
  have hFirst : first.result = .error .fuseProgramFailed ∧ first.left = 0b100 := by
    rw [hResult, hLeft]
    decide +kernel
  have hSecond : second.result = .ok (.advanced 0b100 0b101) ∧ second.left = 0b101 := by
    rw [hResult', hLeft']
    decide +kernel
  have hThird : third.result = .ok (.advanced 0b101 0b111) ∧ third.left = 0b111 := by
    rw [hResult'', hLeft'']
    decide +kernel
  rw [← hVersion] at hRuns
  rw [← hVersion'] at hRuns'
  rw [← hVersion''] at hRuns''
  have hChecks : Checks 0 [first, second, third] third.left := by
    have hOne : Checks 0 ([] ++ [first]) first.left := .snoc .nil hRuns hFuse
    rw [hFirst.2] at hOne
    have hTwo : Checks 0 ([] ++ [first] ++ [second]) second.left := .snoc hOne hRuns' hFuse'
    rw [hSecond.2] at hTwo
    exact .snoc hTwo hRuns'' hFuse''
  have hHarmless := failed_burn_locks_nothing_out hChecks [first, second] third [] rfl
  rw [hThird.2] at hChecks
  exact ⟨first, second, third, hChecks, by rw [hVersion], hFirst.1, hFirst.2, by rw [hVersion'],
    hSecond.1, by rw [hVersion''], hThird.1, hHarmless⟩

end Counter

end BootStage
