import BootStage.Board.Calls
import BootStage.Version

/-!
# The fuse word over time

`Fuse.Follows` is what is relied on about the fuses: a read that succeeds gives the current word,
programming sets some of the bits it was asked to set, whether or not it is reported as done, and
nothing else writes the word.  Along exchanges that follow this law, the number of set bits never
decreases (`Fuse.Evolves.pairwise_bitCount_le`).
-/

namespace BootStage

theorem bitCount_le_bitCount_or (w v : UInt32) : bitCount w ≤ bitCount (w ||| v) := by
  unfold bitCount
  refine List.countP_mono_left fun i _ hBit => ?_
  rw [UInt32.toNat_or, Nat.testBit_or, hBit, Bool.true_or]

namespace Fuse

/-- The exchange takes place while the counter word is the first word, and leaves it as the
second. -/
inductive Follows : UInt32 → Exchange → UInt32 → Prop
  | read (w : UInt32) : Follows w ⟨.counterWord, .ok w⟩ w
  | notRead (w : UInt32) (fault : DriverFault) : Follows w ⟨.counterWord, .error fault⟩ w
  | programmed (w : UInt32) {value index burnt : UInt32} (reply : Except DriverFault Unit) :
      burnt &&& value = burnt → Follows w ⟨.programFuse value index, reply⟩ (w ||| burnt)
  | other (w : UInt32) {e : Exchange} : e.request ≠ .counterWord →
      (∀ value index, e.request ≠ .programFuse value index) → Follows w e w

/-- Exchanges one after the other: the words after each of them, and the last word. -/
inductive Evolves : UInt32 → List Exchange → List UInt32 → UInt32 → Prop
  | nil (w : UInt32) : Evolves w [] [] w
  | cons {w w₁ w₂ : UInt32} {e : Exchange} {t : List Exchange} {words : List UInt32} :
      Follows w e w₁ → Evolves w₁ t words w₂ → Evolves w (e :: t) (w₁ :: words) w₂

theorem Follows.bitCount_le {w w' : UInt32} {e : Exchange} (h : Follows w e w') :
    bitCount w ≤ bitCount w' := by
  cases h with
  | read => exact Nat.le_refl _
  | notRead _ => exact Nat.le_refl _
  | @programmed value index burnt reply _ => exact bitCount_le_bitCount_or w burnt
  | other _ _ => exact Nat.le_refl _

namespace Evolves

variable {w w' : UInt32} {t : List Exchange} {words : List UInt32}

theorem bitCount_le (h : Evolves w t words w') : bitCount w ≤ bitCount w' := by
  induction h with
  | nil w => exact Nat.le_refl _
  | cons hFirst _ ih => exact Nat.le_trans hFirst.bitCount_le ih

/-- No word has fewer bits set than an earlier one. -/
theorem pairwise_bitCount_le (h : Evolves w t words w') :
    (w :: words).Pairwise fun earlier later => bitCount earlier ≤ bitCount later := by
  induction h with
  | nil w => exact List.pairwise_singleton _ w
  | @cons w w₁ w₂ e t words hFirst _ ih =>
    refine List.pairwise_cons.2 ⟨fun later hLater => ?_, ih⟩
    have hStep := hFirst.bitCount_le
    rcases List.mem_cons.1 hLater with rfl | hLater
    · exact hStep
    · have hRest := (List.pairwise_cons.1 ih).1 later hLater
      omega

/-- What happens along two parts happens along the one and then the other. -/
theorem split {t₁ t₂ : List Exchange} (h : Evolves w (t₁ ++ t₂) words w') :
    ∃ words₁ words₂ middle, words = words₁ ++ words₂ ∧ Evolves w t₁ words₁ middle ∧
      Evolves middle t₂ words₂ w' := by
  induction t₁ generalizing w words with
  | nil => exact ⟨[], words, w, rfl, .nil w, h⟩
  | cons e t₁ ih =>
    cases h with
    | @cons _ w₁ _ _ _ words hFirst hRest =>
      obtain ⟨words₁, words₂, middle, rfl, h₁, h₂⟩ := ih hRest
      exact ⟨w₁ :: words₁, words₂, middle, rfl, .cons hFirst h₁, h₂⟩

theorem append {middle : UInt32} {t' : List Exchange} {words' : List UInt32}
    (h : Evolves w t words middle) (h' : Evolves middle t' words' w') :
    Evolves w (t ++ t') (words ++ words') w' := by
  induction h with
  | nil w => exact h'
  | cons hFirst _ ih => exact .cons hFirst (ih h')

/-- A read that succeeds gives the current word. -/
theorem of_read {stored : UInt32} (h : Evolves w (⟨.counterWord, .ok stored⟩ :: t) words w') :
    stored = w ∧ ∃ rest, Evolves w t rest w' := by
  cases h with
  | @cons _ _ _ _ _ rest hFirst hRest =>
    cases hFirst with
    | read => exact ⟨rfl, rest, hRest⟩
    | other hNot _ => exact absurd rfl hNot

theorem of_programmed {value index : UInt32} {reply : Except DriverFault Unit}
    (h : Evolves w (⟨.programFuse value index, reply⟩ :: t) words w') :
    ∃ burnt rest, burnt &&& value = burnt ∧ Evolves (w ||| burnt) t rest w' := by
  cases h with
  | @cons _ _ _ _ _ rest hFirst hRest =>
    cases hFirst with
    | @programmed _ _ burnt _ hBurnt => exact ⟨burnt, rest, hBurnt, hRest⟩
    | other _ hNot => exact absurd rfl (hNot value index)

theorem of_counterIndex {reply : Except DriverFault UInt32}
    (h : Evolves w (⟨.counterIndex, reply⟩ :: t) words w') : ∃ rest, Evolves w t rest w' := by
  cases h with
  | @cons _ _ _ _ _ rest hFirst hRest =>
    cases hFirst with
    | other _ _ => exact ⟨rest, hRest⟩

end Evolves

/-- Programs on a board whose fuses follow the law evolve the word. -/
theorem exists_evolves {α σ : Type} {board : Board σ} (word : σ → UInt32)
    (hBoard : ∀ s q, Follows (word s) ⟨q, (board.respond s q).1⟩ (word (board.respond s q).2))
    (p : Program α) (s : σ) :
    ∃ words, Evolves (word s) (p.transcript board s) words (word (p.exec board s).2) := by
  induction p generalizing s with
  | done a => exact ⟨[], .nil _⟩
  | call q next ih =>
    obtain ⟨words, hRest⟩ := ih (board.respond s q).1 (board.respond s q).2
    exact ⟨_ :: words, .cons (hBoard s q) hRest⟩

end Fuse

end BootStage
