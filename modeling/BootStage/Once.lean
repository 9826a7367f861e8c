import BootStage.Error

/-!
# Set-once cells

A cell is empty until it is filled and keeps its first value for ever.
-/

namespace BootStage

structure OnceCell (α : Type) where
  value? : Option α
  deriving DecidableEq

namespace OnceCell

variable {α : Type}

def empty : OnceCell α := ⟨none⟩

def isFilled (c : OnceCell α) : Bool := c.value?.isSome

/-- The first value is taken, any other refused. -/
def fill (c : OnceCell α) (a : α) : Except Error (OnceCell α) :=
  match c.value? with
  | none => .ok ⟨some a⟩
  | some _ => .error .alreadyInitialized

theorem fill_eq_ok_iff {c d : OnceCell α} {a : α} :
    c.fill a = .ok d ↔ c.value? = none ∧ d.value? = some a := by
  rcases c with ⟨_ | b⟩ <;> rcases d with ⟨d⟩ <;> simp [fill, eq_comm]

end OnceCell

end BootStage
