import BootStage.Proofs.Ensures

/-!
# Two runs side by side

Two programs run, each with answers of its own.  A `View` says what is compared of them: some
requests are left out of account, and some answers count as the same although they differ.
`V.Answered t t'` says that the two runs got the same answers for as long as they asked the same, and
`Program.Alike V R p p'` that two programs which are answered so ask the same and end in values that
`R` relates.

For programs that carry a state and may stop early, `Coupled V S a` says that from states that `S`
relates, `a` asks the same, ends the same, and leaves states that `S` relates.  There is one rule per
way of building a program; where the two runs do not take the same state or the same value, the rules
for `AlikeFrom` take one for each side.
-/

namespace BootStage

/-- What is compared of two runs. -/
structure View where
  /-- Requests that are left out of account. -/
  hides : Request → Bool
  /-- Answers that count as the same. -/
  same : (q : Request) → q.Reply → q.Reply → Prop

namespace View

variable {V : View} {t t' w w' : List Exchange}

/-- The exchanges in view. -/
def seen (V : View) (t : List Exchange) : List Exchange := t.filter fun e => !V.hides e.request

/-- The requests in view. -/
def asked (V : View) (t : List Exchange) : List Request := (V.seen t).map (·.request)

/-- Whenever the same was asked so far and the same is asked next, the answers count as the same. -/
def Answered (V : View) (t t' : List Exchange) : Prop :=
  ∀ u v u' v' q r r', V.seen t = u ++ ⟨q, r⟩ :: v → V.seen t' = u' ++ ⟨q, r'⟩ :: v' →
    u'.map (·.request) = u.map (·.request) → V.same q r r'

/-- The request is in view, and no two answers to it count as the same. -/
def Exact (V : View) (q : Request) : Prop := V.hides q = false ∧ ∀ r r', V.same q r r' → r' = r

theorem seen_append : V.seen (t ++ w) = V.seen t ++ V.seen w := List.filter_append t w

theorem asked_append : V.asked (t ++ w) = V.asked t ++ V.asked w := by
  unfold asked
  rw [seen_append, List.map_append]

theorem seen_eq_nil (h : ∀ e ∈ t, V.hides e.request = true) : V.seen t = [] :=
  List.filter_eq_nil_iff.2 fun e he => by simp [h e he]

theorem seen_singleton {e : Exchange} (h : V.hides e.request = false) : V.seen [e] = [e] :=
  List.filter_eq_self.2 fun e' he => by rw [List.mem_singleton.1 he, h]; rfl

/-- What answers every request in one and the same way answers alike. -/
theorem answered_of_mem
    (h : ∀ q r r', ⟨q, r⟩ ∈ t → ⟨q, r'⟩ ∈ t' → V.same q r r') : V.Answered t t' := by
  intro u v u' v' q r r' hSeen hSeen' _
  have hMem : (⟨q, r⟩ : Exchange) ∈ V.seen t := by
    rw [hSeen]
    exact List.mem_append_right u List.mem_cons_self
  have hMem' : (⟨q, r'⟩ : Exchange) ∈ V.seen t' := by
    rw [hSeen']
    exact List.mem_append_right u' List.mem_cons_self
  exact h q r r' (List.mem_filter.1 hMem).1 (List.mem_filter.1 hMem').1

/-- The first parts of two runs that were answered alike were. -/
theorem Answered.left (h : V.Answered (t ++ w) (t' ++ w')) : V.Answered t t' := by
  intro u v u' v' q r r' hSeen hSeen' hSame
  refine h u (v ++ V.seen w) u' (v' ++ V.seen w') q r r' ?_ ?_ hSame
  · rw [seen_append, hSeen, List.append_assoc, List.cons_append]
  · rw [seen_append, hSeen', List.append_assoc, List.cons_append]

/-- The second parts of two runs that were answered alike were, if the first parts asked the
same. -/
theorem Answered.right (h : V.Answered (t ++ w) (t' ++ w')) (hAsked : V.asked t' = V.asked t) :
    V.Answered w w' := by
  intro u v u' v' q r r' hSeen hSeen' hSame
  refine h (V.seen t ++ u) v (V.seen t' ++ u') v' q r r' ?_ ?_ ?_
  · rw [seen_append, hSeen, List.append_assoc]
  · rw [seen_append, hSeen', List.append_assoc]
  · have hFirst : (V.seen t').map (·.request) = (V.seen t).map (·.request) := hAsked
    rw [List.map_append, List.map_append, hFirst, hSame]

/-- The first request in view is answered the same. -/
theorem Answered.head {q : Request} {r r' : q.Reply} (h : V.Answered (⟨q, r⟩ :: w) (⟨q, r'⟩ :: w'))
    (hSeen : V.hides q = false) : V.same q r r' := by
  refine h [] (V.seen w) [] (V.seen w') q r r' ?_ ?_ rfl
  · rw [List.nil_append, ← List.singleton_append, seen_append, seen_singleton hSeen]
    rfl
  · rw [List.nil_append, ← List.singleton_append, seen_append, seen_singleton hSeen]
    rfl

end View

/-! ## Programs -/

namespace Program

variable {α β γ δ : Type} {V : View}

/-- Answered alike, the two programs ask the same and end in values that `R` relates. -/
def Alike (V : View) (R : α → β → Prop) (p : Program α) (p' : Program β) : Prop :=
  ∀ t t' a a', Runs p t a → Runs p' t' a' → V.Answered t t' → V.asked t' = V.asked t ∧ R a a'

variable {R : α → β → Prop}

theorem alike_pure {a : α} {a' : β} (h : R a a') : Alike V R (pure a) (pure a') := by
  intro t t' x x' hRuns hRuns' _
  obtain ⟨rfl, rfl⟩ := runs_pure_iff.1 hRuns
  obtain ⟨rfl, rfl⟩ := runs_pure_iff.1 hRuns'
  exact ⟨rfl, h⟩

theorem Alike.bind {p : Program α} {p' : Program β} {f : α → Program γ} {f' : β → Program δ}
    {Q : γ → δ → Prop} (h : Alike V R p p') (hf : ∀ a a', R a a' → Alike V Q (f a) (f' a')) :
    Alike V Q (p >>= f) (p' >>= f') := by
  intro t t' b b' hRuns hRuns' hAnswered
  obtain ⟨a, t₁, t₂, h₁, h₂, rfl⟩ := runs_seq_iff.1 hRuns
  obtain ⟨a', t₁', t₂', h₁', h₂', rfl⟩ := runs_seq_iff.1 hRuns'
  obtain ⟨hFirst, hMiddle⟩ := h t₁ t₁' a a' h₁ h₁' hAnswered.left
  obtain ⟨hSecond, hEnd⟩ := hf a a' hMiddle t₂ t₂' b b' h₂ h₂' (hAnswered.right hFirst)
  refine ⟨?_, hEnd⟩
  rw [View.asked_append, View.asked_append, hFirst, hSecond]

theorem alike_ask {q : Request} (hSeen : V.hides q = false) : Alike V (V.same q) (ask q) (ask q) := by
  intro t t' r r' hRuns hRuns' hAnswered
  obtain rfl := runs_ask_iff.1 hRuns
  obtain rfl := runs_ask_iff.1 hRuns'
  refine ⟨?_, hAnswered.head hSeen⟩
  unfold View.asked
  rw [View.seen_singleton hSeen, View.seen_singleton hSeen]
  rfl

/-- A program that asks nothing but what is answered exactly asks the same again and ends the
same. -/
theorem alike_self {p : Program α} (hp : p.AsksOnly V.Exact) : Alike V Eq p p := by
  induction p with
  | done a => exact alike_pure rfl
  | call q next ih =>
    intro t t' a a' hRuns hRuns' hAnswered
    obtain ⟨hSeen, hExact⟩ : V.Exact q := by
      cases hRuns with
      | call hRest => exact hp _ _ (.call hRest) _ List.mem_cons_self
    have hNext : ∀ r, (next r).AsksOnly V.Exact := fun r u b hRest e he =>
      hp _ _ (.call hRest) e (List.mem_cons_of_mem _ he)
    refine ((alike_ask hSeen).bind (Q := Eq) fun r r' hSame => ?_) t t' a a' hRuns hRuns' hAnswered
    rw [hExact r r' hSame]
    exact ih r (hNext r)

/-- Programs that ask nothing in view ask the same. -/
theorem alike_of_hidden {p : Program α} {p' : Program β}
    (hp : ∀ t a, Runs p t a → (∀ e ∈ t, V.hides e.request = true))
    (hp' : ∀ t a, Runs p' t a → (∀ e ∈ t, V.hides e.request = true))
    (hR : ∀ t t' a a', Runs p t a → Runs p' t' a' → R a a') : Alike V R p p' := by
  intro t t' a a' hRuns hRuns' _
  refine ⟨?_, hR t t' a a' hRuns hRuns'⟩
  unfold View.asked
  rw [View.seen_eq_nil (hp t a hRuns), View.seen_eq_nil (hp' t' a' hRuns')]

end Program

/-! ## Programs with a state that may stop early -/

/-- Both ended in values that `R` relates, or in the same error. -/
inductive SameEnd {ε α β : Type} (R : α → β → Prop) : Except ε α → Except ε β → Prop
  | ok {v : α} {v' : β} : R v v' → SameEnd R (.ok v) (.ok v')
  | error (e : ε) : SameEnd R (.error e) (.error e)

theorem SameEnd.eq {ε α : Type} {x x' : Except ε α} (h : SameEnd Eq x x') : x' = x := by
  cases h with
  | ok hSame => rw [hSame]
  | error e => rfl

section Stateful

variable {ε σ α β γ δ : Type} {V : View} {S : σ → σ → Prop} {R : α → β → Prop} {s s' : σ}

/-- Answered alike, `a` from `s` and `a'` from `s'` ask the same, end the same up to `R`, and leave
states that `S` relates. -/
def AlikeFrom (V : View) (S : σ → σ → Prop) (R : α → β → Prop) (s s' : σ)
    (a : ExceptT ε (StateT σ Program) α) (a' : ExceptT ε (StateT σ Program) β) : Prop :=
  Program.Alike V (fun x x' => SameEnd R x.1 x'.1 ∧ S x.2 x'.2) (a.run.run s) (a'.run.run s')

theorem alikeFrom_pure {v : α} {v' : β} (hR : R v v') (hS : S s s') :
    AlikeFrom V S R s s' (pure v : ExceptT ε (StateT σ Program) α) (pure v') :=
  Program.alike_pure ⟨.ok hR, hS⟩

theorem alikeFrom_throw {e : ε} (hS : S s s') :
    AlikeFrom V S R s s' (throw e : ExceptT ε (StateT σ Program) α) (throw e) :=
  Program.alike_pure ⟨.error e, hS⟩

theorem alikeFrom_set {c c' : σ} (hS : S c c') :
    AlikeFrom V S Eq s s' (set c : ExceptT ε (StateT σ Program) Unit) (set c') :=
  Program.alike_pure ⟨.ok rfl, hS⟩

theorem alikeFrom_modify {f f' : σ → σ} (hS : S (f s) (f' s')) :
    AlikeFrom V S Eq s s' (modify f : ExceptT ε (StateT σ Program) Unit) (modify f') :=
  Program.alike_pure ⟨.ok rfl, hS⟩

theorem alikeFrom_lift {p : Program α} {p' : Program β} (hp : p.Alike V R p') (hS : S s s') :
    AlikeFrom V S R s s' (liftM p : ExceptT ε (StateT σ Program) α) (liftM p') := by
  unfold AlikeFrom
  rw [run_lift, run_lift]
  exact hp.bind fun v v' hValue => Program.alike_pure ⟨.ok hValue, hS⟩

/-- What comes after goes on from states that `S` relates and with values that `R` relates. -/
theorem AlikeFrom.bind {a : ExceptT ε (StateT σ Program) α} {a' : ExceptT ε (StateT σ Program) β}
    {f : α → ExceptT ε (StateT σ Program) γ} {f' : β → ExceptT ε (StateT σ Program) δ}
    {Q : γ → δ → Prop} (h : AlikeFrom V S R s s' a a')
    (hf : ∀ v v' c c', R v v' → S c c' → AlikeFrom V S Q c c' (f v) (f' v')) :
    AlikeFrom V S Q s s' (a >>= f) (a' >>= f') := by
  unfold AlikeFrom
  rw [run_bind, run_bind]
  refine Program.Alike.bind h fun ⟨x, c⟩ ⟨x', c'⟩ ⟨hEnd, hStates⟩ => ?_
  cases hEnd with
  | ok hValue => exact hf _ _ c c' hValue hStates
  | error e => exact Program.alike_pure ⟨.error e, hStates⟩

theorem alikeFrom_get_bind {f f' : σ → ExceptT ε (StateT σ Program) α}
    {R : α → α → Prop} (h : AlikeFrom V S R s s' (f s) (f' s')) :
    AlikeFrom V S R s s' (get >>= f) (get >>= f') := h

/-! ## The same program twice -/

/-- From states that `S` relates, the program asks the same, ends the same and leaves states that
`S` relates. -/
def Coupled (V : View) (S : σ → σ → Prop) (a : ExceptT ε (StateT σ Program) α) : Prop :=
  ∀ s s', S s s' → AlikeFrom V S Eq s s' a a

theorem coupled_pure (v : α) : Coupled V S (pure v : ExceptT ε (StateT σ Program) α) :=
  fun _ _ hS => alikeFrom_pure rfl hS

theorem coupled_throw (e : ε) : Coupled V S (throw e : ExceptT ε (StateT σ Program) α) :=
  fun _ _ hS => alikeFrom_throw hS

theorem coupled_modify {f : σ → σ} (hf : ∀ s s', S s s' → S (f s) (f s')) :
    Coupled V S (modify f : ExceptT ε (StateT σ Program) Unit) :=
  fun s s' hS => alikeFrom_modify (hf s s' hS)

theorem coupled_lift {p : Program α} (hp : p.AsksOnly V.Exact) :
    Coupled V S (liftM p : ExceptT ε (StateT σ Program) α) :=
  fun _ _ hS => alikeFrom_lift (Program.alike_self hp) hS

/-- The first part asks the same and ends the same; so does what comes after it. -/
theorem AlikeFrom.coupled {a a' : ExceptT ε (StateT σ Program) α}
    {f : α → ExceptT ε (StateT σ Program) β} (h : AlikeFrom V S Eq s s' a a')
    (hf : ∀ v, Coupled V S (f v)) : AlikeFrom V S Eq s s' (a >>= f) (a' >>= f) := by
  refine h.bind fun v v' c c' hValue hStates => ?_
  obtain rfl : v = v' := hValue
  exact hf v c c' hStates

theorem coupled_bind {a : ExceptT ε (StateT σ Program) α} {f : α → ExceptT ε (StateT σ Program) β}
    (ha : Coupled V S a) (hf : ∀ v, Coupled V S (f v)) : Coupled V S (a >>= f) :=
  fun s s' hS => (ha s s' hS).coupled hf

theorem coupled_when {c : Prop} [Decidable c] {a : ExceptT ε (StateT σ Program) Unit}
    (ha : Coupled V S a) : Coupled V S (if c then a else pure ()) := by
  split
  · exact ha
  · exact coupled_pure ()

/-- A program that is run only under a condition, in front of the rest. -/
theorem coupled_guard {c : Prop} [Decidable c] {a : ExceptT ε (StateT σ Program) Unit}
    {f : Unit → ExceptT ε (StateT σ Program) β} (ha : Coupled V S a) (hf : Coupled V S (f ())) :
    Coupled V S (if c then a >>= f else f ()) := by
  split
  · exact coupled_bind ha fun _ => hf
  · exact hf

theorem coupled_forM {f : α → ExceptT ε (StateT σ Program) Unit} {l : List α}
    (hf : ∀ a, Coupled V S (f a)) : Coupled V S (l.forM f) := by
  induction l with
  | nil => exact coupled_pure ()
  | cons a l ih => exact coupled_bind (hf a) fun _ => ih

/-- What is read of the state is the same on both sides. -/
theorem coupled_get_bind {f : σ → ExceptT ε (StateT σ Program) α}
    (hSame : ∀ s s', S s s' → f s' = f s) (hf : ∀ s, Coupled V S (f s)) :
    Coupled V S (get >>= f) := by
  intro s s' hS
  refine alikeFrom_get_bind ?_
  rw [hSame s s' hS]
  exact hf s s s' hS

end Stateful

end BootStage
