import BootStage.Board.Request

/-!
# Programs that talk to a board

A `Program α` either is done with a value or makes a request and goes on with the reply.  It runs
in two ways:

* against a `Board`, whose answers come from a state that the requests change (`Program.exec`);
* against no particular board: `Runs p t a` says that `p` ends in `a` if the requests of the
  exchange list `t` are answered as `t` says.

Running a sequence splits the exchanges in two (`runs_bind_iff`), and every execution on a board is
such a run (`runs_transcript`).
-/

namespace BootStage

inductive Program (α : Type) : Type
  | done (a : α)
  | call (request : Request) (next : request.Reply → Program α)

namespace Program

variable {α β : Type}

def bind : Program α → (α → Program β) → Program β
  | done a, f => f a
  | call q next, f => call q fun reply => (next reply).bind f

instance : Monad Program where
  pure := done
  bind := bind

/-- A single request. -/
def ask (q : Request) : Program q.Reply := call q done

theorem bind_done (p : Program α) : p.bind done = p := by
  induction p with
  | done a => rfl
  | call q next ih => simp only [bind, ih]

theorem bind_assoc {γ : Type} (p : Program α) (f : α → Program β) (g : β → Program γ) :
    (p.bind f).bind g = p.bind fun a => (f a).bind g := by
  induction p with
  | done a => rfl
  | call q next ih => simp only [bind, ih]

instance : LawfulMonad Program :=
  LawfulMonad.mk' Program (fun p => bind_done p) (fun _ _ => rfl) bind_assoc

end Program

/-- A request and its reply. -/
structure Exchange where
  request : Request
  reply : request.Reply

/-- The program ends in a value if its requests are answered as listed. -/
inductive Runs {α : Type} : Program α → List Exchange → α → Prop
  | done (a : α) : Runs (.done a) [] a
  | call {q : Request} {next : q.Reply → Program α} {reply : q.Reply} {t : List Exchange} {a : α} :
      Runs (next reply) t a → Runs (.call q next) (⟨q, reply⟩ :: t) a

/-- A machine that answers requests out of a state. -/
structure Board (σ : Type) where
  respond : σ → (q : Request) → q.Reply × σ

namespace Program

variable {α σ : Type}

/-- Value and final state of a program on a board. -/
def exec (b : Board σ) : Program α → σ → α × σ
  | done a, s => (a, s)
  | call q next, s => (next (b.respond s q).1).exec b (b.respond s q).2

/-- The exchanges of a program on a board. -/
def transcript (b : Board σ) : Program α → σ → List Exchange
  | done _, _ => []
  | call q next, s =>
    ⟨q, (b.respond s q).1⟩ :: (next (b.respond s q).1).transcript b (b.respond s q).2

theorem runs_transcript (b : Board σ) (p : Program α) (s : σ) :
    Runs p (p.transcript b s) (p.exec b s).1 := by
  induction p generalizing s with
  | done a => exact .done a
  | call q next ih => exact .call (ih _ _)

end Program

theorem runs_done_iff {α : Type} {a x : α} {t : List Exchange} :
    Runs (.done a) t x ↔ t = [] ∧ x = a := by
  constructor
  · intro h
    cases h
    exact ⟨rfl, rfl⟩
  · rintro ⟨rfl, rfl⟩
    exact .done _

/-- The exchanges of a sequence are those of its first part followed by those of the second. -/
theorem runs_bind_iff {α β : Type} {p : Program α} {f : α → Program β} {t : List Exchange} {b : β} :
    Runs (p.bind f) t b ↔ ∃ a t₁ t₂, Runs p t₁ a ∧ Runs (f a) t₂ b ∧ t = t₁ ++ t₂ := by
  induction p generalizing t with
  | done a =>
    constructor
    · intro h
      exact ⟨a, [], t, .done a, h, rfl⟩
    · rintro ⟨x, t₁, t₂, h₁, h₂, rfl⟩
      obtain ⟨rfl, rfl⟩ := runs_done_iff.1 h₁
      exact h₂
  | call q next ih =>
    constructor
    · intro h
      cases h with
      | call h =>
        obtain ⟨a, t₁, t₂, h₁, h₂, rfl⟩ := (ih _).1 h
        exact ⟨a, _ :: t₁, t₂, .call h₁, h₂, rfl⟩
    · rintro ⟨a, t₁, t₂, h₁, h₂, rfl⟩
      cases h₁ with
      | call h₁ => exact .call ((ih _).2 ⟨a, _, t₂, h₁, h₂, rfl⟩)

end BootStage
