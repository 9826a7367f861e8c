import BootStage.Proofs.Placement.LoadOrder
import BootStage.Proofs.Placement.TeeLoads

/-!
# Actions as functions on tables

A board that keeps its answers leaves nothing open: what bringing an image in makes of the table is a
function of the table.  `Turns answer config a f` says that `f` is that function of the action `a`, and
there is one rule per way of building an action.
-/

namespace BootStage.Placement

variable {answer : (q : Request) → q.Reply} {config : Config}

/-- On a board that answers as `answer` says, the action turns every table into what `f` says, or
fails as `f` says; it keeps the configuration. -/
def Turns (answer : (q : Request) → q.Reply) (config : Config) (a : Placing Unit)
    (f : ImageTable → Except Error ImageTable) : Prop :=
  ∀ s : Session, s.placement.config = config → Ensures a s fun t x s' => Steady answer t →
    s'.placement.config = config ∧ (x.map fun _ => s'.placement.table) = f s.placement.table

section Turns

variable {a b : Placing Unit} {f g : ImageTable → Except Error ImageTable}

theorem turns_pure : Turns answer config (pure ()) .ok :=
  fun _ hConfig => ensures_pure.2 fun _ => ⟨hConfig, rfl⟩

theorem turns_throw (e : Error) : Turns answer config (throw e) fun _ => .error e :=
  fun _ hConfig => ensures_throw.2 fun _ => ⟨hConfig, rfl⟩

theorem Turns.congr (h : Turns answer config a f) (hSame : ∀ table, f table = g table) :
    Turns answer config a g := by
  rwa [← funext hSame]

theorem Turns.seq (ha : Turns answer config a f) (hb : Turns answer config b g) :
    Turns answer config (a >>= fun _ => b) fun table => f table >>= g := by
  intro s hConfig
  refine ensures_bind.2 ((ha s hConfig).mono fun t x s' hFirst => ?_)
  cases x with
  | error e =>
    intro hSteady
    obtain ⟨hSame, hTable⟩ := hFirst hSteady
    exact ⟨hSame, congrArg (· >>= g) hTable⟩
  | ok _ =>
    intro t' y s'' hRest hSteady
    obtain ⟨hSteady₁, hSteady₂⟩ := steady_append_iff.1 hSteady
    obtain ⟨hSame, hTable⟩ := hFirst hSteady₁
    obtain ⟨hSame', hTable'⟩ := hb s' hSame t' y s'' hRest hSteady₂
    exact ⟨hSame', hTable'.trans (congrArg (· >>= g) hTable)⟩

theorem turns_update (image : ImageId) (change : Descriptor → Descriptor) :
    Turns answer config (Placing.update image change) fun table => .ok (table.update image change) :=
  fun _ hConfig => ensures_modify.2 fun _ => ⟨hConfig, rfl⟩

theorem turns_update_bind {image : ImageId} {change : Descriptor → Descriptor}
    (h : Turns answer config a f) :
    Turns answer config (Placing.update image change >>= fun _ => a) fun table =>
      f (table.update image change) :=
  (turns_update image change).seq h

theorem turns_note_bind {level : Log.Level} {pieces : List String} (h : Turns answer config a f) :
    Turns answer config (Placing.note level pieces >>= fun _ => a) f := by
  have hNote : Turns answer config (Placing.note level pieces) .ok :=
    fun _ hConfig => ensures_modify.2 fun _ => ⟨hConfig, rfl⟩
  exact hNote.seq h

/-- The action goes on with what the board answers. -/
theorem turns_ask_bind {q : Request} {k : q.Reply → Placing Unit}
    (h : Turns answer config (k (answer q)) f) :
    Turns answer config ((liftM (Program.ask q) : Placing q.Reply) >>= k) f := by
  intro s hConfig
  refine ensures_ask_bind.2 fun reply t x s' hRest hSteady => ?_
  obtain rfl : reply = answer q := hSteady _ List.mem_cons_self
  exact h s hConfig t x s' hRest fun e he => hSteady e (List.mem_cons_of_mem _ he)

/-- A program that answers nothing leaves the table alone. -/
theorem turns_lift (program : Program Unit) :
    Turns answer config (liftM program : Placing Unit) .ok :=
  fun _ hConfig => ensures_lift.2 fun _ _ _ _ => ⟨hConfig, rfl⟩

theorem turns_config_bind {k : Config → Placing Unit} (h : Turns answer config (k config) f) :
    Turns answer config (Placing.config >>= k) f := by
  intro s hConfig
  refine ensures_config_bind.2 ?_
  rw [hConfig]
  exact h s hConfig

/-- What is read of the table decides what the rest is. -/
theorem turns_table_bind {k : ImageTable → Placing Unit}
    {f : ImageTable → ImageTable → Except Error ImageTable}
    (h : ∀ table, Turns answer config (k table) (f table)) :
    Turns answer config (Placing.table >>= k) fun table => f table table :=
  fun s hConfig => ensures_table_bind.2 (h s.placement.table s hConfig)

section Map

variable {α β : Type} {x : Except Error α} {h : α → β}

theorem eq_error_of_map {e : Error} (hMap : x.map h = .error e) : x = .error e := by
  cases x with
  | error e' =>
    cases hMap
    rfl
  | ok _ => cases hMap

theorem exists_of_map {value : β} (hMap : x.map h = .ok value) : ∃ v, x = .ok v ∧ h v = value := by
  cases x with
  | error _ => cases hMap
  | ok v => exact ⟨v, rfl, Except.ok.inj hMap⟩

end Map

/-- What a load makes of the table where the board keeps its answers. -/
theorem Load.turned {image : ImageId} {p q : Placement} {result : Except Error Unit}
    (h : Load answer image p result q) (hTurns : Turns answer p.config (afterLoad image) f) :
    q.config = p.config ∧ (result.map fun _ => q.table) = f p.table := by
  obtain ⟨log, t, s, hRuns, hSteady, rfl⟩ := h
  exact hTurns ⟨p, log⟩ rfl t result s hRuns hSteady

end Turns

end BootStage.Placement
