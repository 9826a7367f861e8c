import BootStage.Proofs.Program

/-!
# Postconditions of effectful programs

A program may carry a state and stop early while it talks to a board.  `Ensures a s Q` says that `Q`
holds of exchanges, outcome and final state however such a program `a` goes when it is started in
`s`.  There is one rule per way of building a program, and each is an equivalence.
-/

namespace BootStage

variable {ε σ α β : Type}

theorem run_lift (p : Program α) (s : σ) :
    (liftM p : ExceptT ε (StateT σ Program) α).run.run s = p >>= fun v => pure (.ok v, s) := by
  show (p >>= fun v => pure (v, s)) >>= _ = _
  rw [bind_assoc]
  rfl

theorem run_bind (a : ExceptT ε (StateT σ Program) α) (f : α → ExceptT ε (StateT σ Program) β)
    (s : σ) : (a >>= f).run.run s = a.run.run s >>= fun p =>
      match p.1 with
      | .ok v => (f v).run.run p.2
      | .error e => pure (.error e, p.2) := by
  show a.run.run s >>= _ = _
  congr 1
  funext ⟨x, s'⟩
  cases x <;> rfl

/-- However `a` goes from `s`, `Q` holds of its exchanges, its outcome and the state it leaves. -/
def Ensures (a : ExceptT ε (StateT σ Program) α) (s : σ)
    (Q : List Exchange → Except ε α → σ → Prop) : Prop :=
  ∀ t x s', Runs (a.run.run s) t (x, s') → Q t x s'

variable {s : σ} {Q : List Exchange → Except ε α → σ → Prop}

theorem Ensures.mono {a : ExceptT ε (StateT σ Program) α}
    {Q' : List Exchange → Except ε α → σ → Prop}
    (h : Ensures a s Q) (hQ : ∀ t x s', Q t x s' → Q' t x s') : Ensures a s Q' :=
  fun t x s' hRuns => hQ t x s' (h t x s' hRuns)

theorem ensures_of_run_eq_pure {a : ExceptT ε (StateT σ Program) α} {x : Except ε α} {s' : σ}
    (h : a.run.run s = pure (x, s')) : Ensures a s Q ↔ Q [] x s' := by
  unfold Ensures
  rw [h]
  constructor
  · intro hAll
    exact hAll [] x s' (.done _)
  · intro hQ t x' s'' hRuns
    obtain ⟨rfl, hEq⟩ := runs_pure_iff.1 hRuns
    cases hEq
    exact hQ

theorem ensures_pure {v : α} :
    Ensures (pure v : ExceptT ε (StateT σ Program) α) s Q ↔ Q [] (.ok v) s :=
  ensures_of_run_eq_pure rfl

theorem ensures_throw {e : ε} :
    Ensures (throw e : ExceptT ε (StateT σ Program) α) s Q ↔ Q [] (.error e) s :=
  ensures_of_run_eq_pure rfl

theorem ensures_get {Q : List Exchange → Except ε σ → σ → Prop} :
    Ensures (get : ExceptT ε (StateT σ Program) σ) s Q ↔ Q [] (.ok s) s :=
  ensures_of_run_eq_pure rfl

theorem ensures_set {s' : σ} {Q : List Exchange → Except ε Unit → σ → Prop} :
    Ensures (set s' : ExceptT ε (StateT σ Program) Unit) s Q ↔ Q [] (.ok ()) s' :=
  ensures_of_run_eq_pure rfl

theorem ensures_modify {f : σ → σ} {Q : List Exchange → Except ε Unit → σ → Prop} :
    Ensures (modify f : ExceptT ε (StateT σ Program) Unit) s Q ↔ Q [] (.ok ()) (f s) :=
  ensures_of_run_eq_pure rfl

theorem ensures_lift {p : Program α} :
    Ensures (liftM p : ExceptT ε (StateT σ Program) α) s Q ↔
      ∀ t v, Runs p t v → Q t (.ok v) s := by
  unfold Ensures
  rw [run_lift]
  constructor
  · intro h t v hRuns
    exact h t (.ok v) s (runs_seq_iff.2 ⟨v, t, [], hRuns, .done _, (List.append_nil t).symm⟩)
  · intro h t x s' hRuns
    obtain ⟨v, t₁, t₂, h₁, h₂, rfl⟩ := runs_seq_iff.1 hRuns
    obtain ⟨rfl, hEq⟩ := runs_pure_iff.1 h₂
    cases hEq
    rw [List.append_nil]
    exact h t₁ v h₁

/-- A program that stops ends the sequence; otherwise the rest goes on from what it left. -/
theorem ensures_bind {a : ExceptT ε (StateT σ Program) α}
    {f : α → ExceptT ε (StateT σ Program) β} {Q : List Exchange → Except ε β → σ → Prop} :
    Ensures (a >>= f) s Q ↔ Ensures a s fun t x s' =>
      match x with
      | .ok v => Ensures (f v) s' fun t' y s'' => Q (t ++ t') y s''
      | .error e => Q t (.error e) s' := by
  unfold Ensures
  rw [run_bind]
  constructor
  · intro h t x s' hRuns
    cases x with
    | ok v =>
      intro t' y s'' hRest
      exact h (t ++ t') y s'' (runs_seq_iff.2 ⟨_, t, t', hRuns, hRest, rfl⟩)
    | error e =>
      exact h t (.error e) s'
        (runs_seq_iff.2 ⟨_, t, [], hRuns, .done _, (List.append_nil t).symm⟩)
  · intro h t y s'' hRuns
    obtain ⟨⟨x, s'⟩, t₁, t₂, h₁, h₂, rfl⟩ := runs_seq_iff.1 hRuns
    have hFirst := h t₁ x s' h₁
    cases x with
    | ok v => exact hFirst t₂ y s'' h₂
    | error e =>
      obtain ⟨rfl, hEq⟩ := runs_pure_iff.1 h₂
      cases hEq
      rw [List.append_nil]
      exact hFirst

/-! ## What a first part hands on -/

variable {Q : List Exchange → Except ε β → σ → Prop}

theorem ensures_get_bind {f : σ → ExceptT ε (StateT σ Program) β} :
    Ensures (get >>= f) s Q ↔ Ensures (f s) s Q :=
  ensures_bind.trans ensures_get

theorem ensures_modify_bind {g : σ → σ} {f : Unit → ExceptT ε (StateT σ Program) β} :
    Ensures (modify g >>= f) s Q ↔ Ensures (f ()) (g s) Q :=
  ensures_bind.trans ensures_modify

theorem ensures_lift_bind {p : Program α} {f : α → ExceptT ε (StateT σ Program) β} :
    Ensures (liftM p >>= f) s Q ↔
      ∀ t v, Runs p t v → Ensures (f v) s fun t' y s' => Q (t ++ t') y s' :=
  ensures_bind.trans ensures_lift

/-- A query: the rest goes on from whatever the answer is. -/
theorem ensures_ask_bind {q : Request} {f : q.Reply → ExceptT ε (StateT σ Program) β} :
    Ensures ((liftM (Program.ask q) : ExceptT ε (StateT σ Program) q.Reply) >>= f) s Q ↔
      ∀ reply, Ensures (f reply) s fun t x s' => Q (⟨q, reply⟩ :: t) x s' := by
  rw [ensures_lift_bind]
  constructor
  · intro h reply
    exact h [⟨q, reply⟩] reply (runs_ask_iff.2 rfl)
  · intro h t reply hRuns
    rw [runs_ask_iff.1 hRuns]
    exact h reply

end BootStage
