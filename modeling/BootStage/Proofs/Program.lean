import BootStage.Board.Calls
import BootStage.MemoryMap
import BootStage.Poll

/-!
# Which requests a program can make

`p.AsksOnly S` says that every request of every run of `p` is in `S`, however the board answers.
It holds of a sequence if it holds of the parts, so each program is gone through once, and callers
use what was found.
-/

namespace BootStage

variable {α β : Type}

theorem runs_pure_iff {a x : α} {t : List Exchange} :
    Runs (pure a) t x ↔ t = [] ∧ x = a :=
  runs_done_iff

theorem runs_ask_iff {q : Request} {t : List Exchange} {reply : q.Reply} :
    Runs (Program.ask q) t reply ↔ t = [⟨q, reply⟩] := by
  constructor
  · intro h
    cases h with
    | call h =>
      obtain ⟨rfl, rfl⟩ := runs_done_iff.1 h
      rfl
  · rintro rfl
    exact .call (.done _)

theorem runs_seq_iff {p : Program α} {f : α → Program β} {t : List Exchange} {b : β} :
    Runs (p >>= f) t b ↔ ∃ a t₁ t₂, Runs p t₁ a ∧ Runs (f a) t₂ b ∧ t = t₁ ++ t₂ :=
  runs_bind_iff

/-- A program that was answered in one way, and in the same way for as long as that went on, has made
one run: it ends where it ended. -/
theorem Runs.eq_of_prefix {p : Program α} {t t' : List Exchange} {a a' : α} (h : Runs p t a)
    (h' : Runs p t' a') (hPrefix : t <+: t') : t' = t ∧ a' = a := by
  induction h generalizing t' with
  | done a => exact runs_done_iff.1 h'
  | call _ ih =>
    cases h' with
    | call hRest =>
      obtain ⟨hHead, hTail⟩ := List.cons_prefix_cons.1 hPrefix
      cases hHead
      obtain ⟨rfl, rfl⟩ := ih hRest hTail
      exact ⟨rfl, rfl⟩

namespace Program

/-- Every request that the program can make is in `S`. -/
def AsksOnly (S : Request → Prop) (p : Program α) : Prop :=
  ∀ t a, Runs p t a → ∀ e ∈ t, S e.request

variable {S : Request → Prop}

theorem AsksOnly.mono {S' : Request → Prop} {p : Program α} (h : p.AsksOnly S)
    (hS : ∀ q, S q → S' q) : p.AsksOnly S' :=
  fun t a hRuns e he => hS e.request (h t a hRuns e he)

theorem asksOnly_pure (a : α) : (pure a : Program α).AsksOnly S := by
  intro t x h e he
  obtain ⟨rfl, rfl⟩ := runs_pure_iff.1 h
  cases he

theorem asksOnly_ask {q : Request} (h : S q) : (ask q).AsksOnly S := by
  intro t reply hRuns e he
  rw [runs_ask_iff.1 hRuns, List.mem_singleton] at he
  rw [he]
  exact h

theorem asksOnly_bind {p : Program α} {f : α → Program β} (hp : p.AsksOnly S)
    (hf : ∀ a, (f a).AsksOnly S) : (p >>= f).AsksOnly S := by
  intro t b h e he
  obtain ⟨a, t₁, t₂, h₁, h₂, rfl⟩ := runs_seq_iff.1 h
  rcases List.mem_append.1 he with he | he
  · exact hp t₁ a h₁ e he
  · exact hf a t₂ b h₂ e he

theorem asksOnly_setBits {address mask : UInt32} (hRead : S (.readRegister address))
    (hWrite : ∀ value, S (.writeRegister address value)) :
    (Board.setBits address mask).AsksOnly S :=
  asksOnly_bind (asksOnly_ask hRead) fun _ => asksOnly_ask (hWrite _)

theorem asksOnly_clearBits {address mask : UInt32} (hRead : S (.readRegister address))
    (hWrite : ∀ value, S (.writeRegister address value)) :
    (Board.clearBits address mask).AsksOnly S :=
  asksOnly_bind (asksOnly_ask hRead) fun _ => asksOnly_ask (hWrite _)

theorem asksOnly_clearSetBits {address clear set : UInt32} (hRead : S (.readRegister address))
    (hWrite : ∀ value, S (.writeRegister address value)) :
    (Board.clearSetBits address clear set).AsksOnly S :=
  asksOnly_bind (asksOnly_ask hRead) fun _ => asksOnly_ask (hWrite _)

theorem asksOnly_rounds {deadline : Deadline} {condition : Program Bool} (hNow : S .now)
    (hCondition : condition.AsksOnly S) (patience : Nat) :
    (Poll.rounds deadline condition patience).AsksOnly S := by
  induction patience with
  | zero => exact asksOnly_pure _
  | succ patience ih =>
    refine asksOnly_bind hCondition fun holds => ?_
    cases holds with
    | true => exact asksOnly_pure _
    | false =>
      refine asksOnly_bind (asksOnly_ask hNow) fun now => ?_
      show Program.AsksOnly S (if deadline.isExpired now then _ else _)
      split
      · exact asksOnly_bind hCondition fun _ => asksOnly_pure _
      · exact ih

theorem asksOnly_awaitBits {patience : Nat} {address mask timeout : UInt32} {state : Poll.BitState}
    (hNow : S .now) (hRead : S (.readRegister address)) :
    (Poll.awaitBits patience address mask state timeout).AsksOnly S :=
  asksOnly_bind (asksOnly_ask hNow) fun _ =>
    asksOnly_rounds hNow (asksOnly_bind (asksOnly_ask hRead) fun _ => asksOnly_pure _) patience

theorem asksOnly_handOver {regions : List Region} (hEnable : S .enableMmu)
    (hMap : ∀ r ∈ regions, S (.mapStatic r)) : (MemoryMap.handOver regions).AsksOnly S := by
  induction regions with
  | nil => exact asksOnly_ask hEnable
  | cons r rs ih =>
    refine asksOnly_bind (asksOnly_ask (hMap r List.mem_cons_self)) fun reply => ?_
    cases reply with
    | ok _ => exact ih fun r' h => hMap r' (List.mem_cons_of_mem r h)
    | error _ => exact asksOnly_pure _

theorem asksOnly_addDynamic {m : MemoryMap} {r : Region} (hMap : S (.mapDynamic r)) :
    (m.addDynamic r).AsksOnly S := by
  unfold MemoryMap.addDynamic
  split
  · exact asksOnly_pure _
  · refine asksOnly_bind (asksOnly_ask hMap) fun reply => ?_
    cases reply with
    | ok _ => exact asksOnly_pure _
    | error _ => exact asksOnly_pure _

end Program

end BootStage
