import BootStage.Placement.Load
import BootStage.Proofs.Boards
import BootStage.Proofs.Program

/-!
# Images brought in one after the other

Each load goes on from the placement that the one before left, whatever became of that one
(`LoadsInTurn`).  What holds of every sequence of loads needs neither the images nor their results;
it is about `Loads`, which leaves both open.

    a board that is asked for any images, in any order → their loads in turn    (exists_loadsInTurn)
-/

namespace BootStage.Placement

variable {p q : Placement} {images : List ImageId} {t : List Exchange}
  {results : List (Except Error Unit)}

/-- Images brought in one after the other with their results; the log is lent anew each time. -/
inductive LoadsInTurn :
    Placement → List ImageId → List Exchange → List (Except Error Unit) → Placement → Prop
  | nil (p : Placement) : LoadsInTurn p [] [] [] p
  | cons {p q : Placement} {image : ImageId} {images : List ImageId} {log : Log.Ring}
      {t t' : List Exchange} {result : Except Error Unit} {results : List (Except Error Unit)}
      {s : Session} :
      Runs (imageLoaded image p log) t (result, s) → LoadsInTurn s.placement images t' results q →
      LoadsInTurn p (image :: images) (t ++ t') (result :: results) q

/-- Some images brought in one after the other, with whatever results. -/
def Loads (p : Placement) (t : List Exchange) (q : Placement) : Prop :=
  ∃ images results, LoadsInTurn p images t results q

theorem LoadsInTurn.eq_of_nil (h : LoadsInTurn p [] t results q) :
    t = [] ∧ results = [] ∧ q = p := by
  cases h
  exact ⟨rfl, rfl, rfl⟩

theorem loads_of_runs {image : ImageId} {log : Log.Ring} {result : Except Error Unit} {s : Session}
    (h : Runs (imageLoaded image p log) t (result, s)) : Loads p t s.placement := by
  have hLoads : LoadsInTurn p [image] (t ++ []) [result] s.placement := .cons h (.nil s.placement)
  rw [List.append_nil] at hLoads
  exact ⟨[image], [result], hLoads⟩

/-- Bring images in one after the other, whatever comes of each. -/
def loadAll : List ImageId → Session → Program (List (Except Error Unit) × Session)
  | [], s => pure ([], s)
  | image :: images, s => do
    let (result, s) ← imageLoaded image s.placement s.log
    let (results, s) ← loadAll images s
    return (result :: results, s)

theorem loadsInTurn_of_runs {s s' : Session} (h : Runs (loadAll images s) t (results, s')) :
    LoadsInTurn s.placement images t results s'.placement := by
  induction images generalizing s t results with
  | nil =>
    obtain ⟨rfl, hEq⟩ := runs_pure_iff.1 h
    cases hEq
    exact .nil _
  | cons image images ih =>
    obtain ⟨⟨result, s₁⟩, t₁, t₂, hLoad, hRest, rfl⟩ := runs_seq_iff.1 h
    obtain ⟨⟨later, s₂⟩, t₃, t₄, hLater, hEnd, rfl⟩ := runs_seq_iff.1 hRest
    obtain ⟨rfl, hEq⟩ := runs_pure_iff.1 hEnd
    cases hEq
    rw [List.append_nil]
    exact .cons hLoad (ih hLater)

/-- A board answers any images that are brought in to it. -/
theorem exists_loadsInTurn {σ : Type} (board : Board σ) (b : σ) (images : List ImageId)
    (p : Placement) : ∃ t results q, LoadsInTurn p images t results q ∧
      ∀ e ∈ t, ∃ b', e.reply = (board.respond b' e.request).1 := by
  have hRuns := Program.runs_transcript board (loadAll images ⟨p, .empty .info⟩) b
  exact ⟨_, _, _, loadsInTurn_of_runs hRuns, fun _ he =>
    Program.reply_of_mem_transcript board _ b he⟩

theorem exists_steady_loads (answer : (q : Request) → q.Reply) (images : List ImageId)
    (p : Placement) : ∃ t results q, LoadsInTurn p images t results q ∧ Steady answer t := by
  obtain ⟨t, results, q, hLoads, hReplies⟩ := exists_loadsInTurn (steadyBoard answer) () images p
  refine ⟨t, results, q, hLoads, fun e he => ?_⟩
  obtain ⟨_, hReply⟩ := hReplies e he
  exact hReply

end BootStage.Placement
