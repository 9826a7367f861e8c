import BootStage.Proofs.Placement.Resume
import BootStage.Proofs.TwoRuns

/-!
# The order in which images are brought in

Once the firmware configuration has been carried out, the other images may come in any order.  Two of
them have consequences for the table, the TEE and the non-secure firmware, and both write the
descriptor of the TEE.  What keeps them apart is that the non-secure firmware writes nothing but the
address that the TEE returns to, and that nothing which is done for the TEE reads that address: from
placements that differ in it alone, the TEE ends the same and leaves placements that differ in it
alone (`coupled_placeTee`).  So neighbouring loads can be swapped (`swaps_of_ne`), and with them any
order can be made into any other.

    same loads in another order → same placement, same results of the loads of each image
                                                                          (load_order_irrelevant)
-/

namespace BootStage

/-- Every request is in view, and every answer counts. -/
def View.everything : View := ⟨fun _ => false, fun _ r r' => r' = r⟩

section Steady

variable {answer : (q : Request) → q.Reply} {t t' : List Exchange}

theorem steady_append_iff : Steady answer (t ++ t') ↔ Steady answer t ∧ Steady answer t' :=
  List.forall_mem_append

/-- A board that does not change its answers answers two runs alike. -/
theorem Steady.answered (h : Steady answer t) (h' : Steady answer t') :
    View.everything.Answered t t' :=
  View.answered_of_mem fun q r r' hMem hMem' => (h' ⟨q, r'⟩ hMem').trans (h ⟨q, r⟩ hMem).symm

end Steady

/-! ## The address that the TEE returns to -/

/-- The table in which the TEE returns to `pc`. -/
def ImageTable.returning (t : ImageTable) (pc : UInt64) : ImageTable :=
  t.update .tee fun d => { d with entry := { d.entry with returnAddress := pc } }

namespace Placement

/-- The placement in which the TEE returns to `pc`. -/
def returning (p : Placement) (pc : UInt64) : Placement := { p with table := p.table.returning pc }

theorem returning_self (p : Placement) : p.returning p.table.tee.entry.returnAddress = p := rfl

theorem returning_returning (p : Placement) (pc pc' : UInt64) :
    (p.returning pc).returning pc' = p.returning pc' := rfl

/-- The placements differ in nothing but that the TEE of the second returns to `pc`; the logs may
differ.  The non-secure firmware is entered at `firmware`. -/
structure Apart (pc firmware : UInt64) (s s' : Session) : Prop where
  placement : s'.placement = s.placement.returning pc
  firmware : s.placement.table.nonSecureFirmware.entry.pc = firmware

/-! ## What is done for the TEE -/

section Coupled

variable {pc firmware : UInt64} {α β : Type}

/-- From placements that are `Apart`, the action asks the same, ends the same, and leaves them
apart. -/
abbrev CoupledApart (pc firmware : UInt64) (a : Placing α) : Prop :=
  Coupled View.everything (Apart pc firmware) a

theorem coupled_ask (q : Request) :
    CoupledApart pc firmware (liftM (Program.ask q) : Placing q.Reply) :=
  coupled_lift (Program.asksOnly_ask ⟨rfl, fun _ _ hSame => hSame⟩)

theorem coupled_ask_bind {q : Request} {f : q.Reply → Placing α}
    (hf : ∀ reply, CoupledApart pc firmware (f reply)) :
    CoupledApart pc firmware ((liftM (Program.ask q) : Placing q.Reply) >>= f) :=
  coupled_bind (coupled_ask q) hf

theorem coupled_config_bind {f : Config → Placing α}
    (hf : ∀ config, CoupledApart pc firmware (f config)) :
    CoupledApart pc firmware (Placing.config >>= f) := by
  refine coupled_bind (coupled_get_bind (fun s s' hApart => ?_) fun _ => coupled_pure _) hf
  rw [hApart.placement]
  rfl

/-- What is read of the table does not depend on where the TEE returns to. -/
theorem coupled_table_bind {f : ImageTable → Placing α} (hSame : ∀ t, f (t.returning pc) = f t)
    (hf : ∀ table, CoupledApart pc firmware (f table)) :
    CoupledApart pc firmware (Placing.table >>= f) := by
  unfold Placing.table
  simp only [bind_assoc, pure_bind]
  refine coupled_get_bind (fun s s' hApart => ?_) fun _ => hf _
  rw [hApart.placement]
  exact hSame _

/-- What is written to the table has nothing to do with where the TEE returns to and where the
non-secure firmware is entered. -/
theorem coupled_update {image : ImageId} {f : Descriptor → Descriptor}
    (hReturn : ∀ t : ImageTable, (t.returning pc).update image f = (t.update image f).returning pc)
    (hFirmware : ∀ t : ImageTable, (t.update image f).nonSecureFirmware = t.nonSecureFirmware) :
    CoupledApart pc firmware (Placing.update image f) := by
  refine coupled_modify fun s s' hApart => ⟨?_, ?_⟩
  · rw [hApart.placement]
    exact congrArg (fun table => { s.placement with table }) (hReturn s.placement.table)
  · exact (congrArg (·.entry.pc) (hFirmware s.placement.table)).trans hApart.firmware

theorem coupled_note (level : Log.Level) (pieces : List String) :
    CoupledApart pc firmware (Placing.note level pieces) :=
  coupled_modify fun _ _ hApart => ⟨hApart.placement, hApart.firmware⟩

theorem coupled_enterTee (entry : UInt64) : CoupledApart pc firmware (Placing.enterAt .tee entry) :=
  coupled_update (fun _ => rfl) fun _ => rfl

theorem coupled_dramTopWindow : CoupledApart pc firmware Placing.dramTopWindow := by
  refine coupled_config_bind fun config => coupled_ask_bind fun size => ?_
  cases config.layout.dramTopWindow? size with
  | some window => exact coupled_pure window
  | none => exact coupled_throw _

theorem coupled_teeWindows (bytes : List UInt8) : CoupledApart pc firmware (teeWindows bytes) := by
  refine coupled_config_bind fun config => ?_
  cases config.teeWindows with
  | fixed => exact coupled_table_bind (fun _ => rfl) fun _ => coupled_pure _
  | dramTop => exact coupled_bind coupled_dramTopWindow fun _ => coupled_pure _

theorem coupled_placeSplit (parts : Tee.Split) : CoupledApart pc firmware (placeSplit parts) := by
  refine coupled_bind (coupled_update (fun _ => rfl) fun _ => rfl) fun _ => ?_
  refine coupled_bind (coupled_update (fun _ => rfl) fun _ => rfl) fun _ => ?_
  exact coupled_update (fun _ => rfl) fun _ => rfl

theorem coupled_growByConfig : CoupledApart pc firmware growByConfig := by
  refine coupled_table_bind (fun _ => rfl) fun table => ?_
  dsimp only
  split
  · exact coupled_update (fun _ => rfl) fun _ => rfl
  · exact coupled_throw _

theorem coupled_placeMonolithic : CoupledApart pc firmware placeMonolithic := by
  have hArgument : CoupledApart pc firmware (Placing.update .tee fun d =>
      { d with entry := { d.entry with arg0 := 0 } }) := coupled_update (fun _ => rfl) fun _ => rfl
  refine coupled_table_bind (fun _ => rfl) fun table => ?_
  refine coupled_guard (coupled_throw _) (coupled_config_bind fun config => ?_)
  cases config.teeWindows with
  | fixed => exact coupled_bind coupled_growByConfig fun _ => hArgument
  | dramTop => exact coupled_bind (coupled_enterTee _) fun _ => hArgument

theorem coupled_placeContainer (bytes : List UInt8) (base : UInt64) :
    CoupledApart pc firmware (placeContainer bytes base) := by
  refine coupled_bind (coupled_teeWindows bytes) fun windows => coupled_config_bind fun config => ?_
  split
  · exact coupled_placeSplit _
  · exact coupled_placeMonolithic
  · exact coupled_bind (coupled_note _ _) fun _ => coupled_throw _

theorem coupled_resumeTee : CoupledApart pc firmware resumeTee := by
  refine coupled_ask_bind fun entry => coupled_bind (coupled_enterTee entry) fun _ => ?_
  refine coupled_config_bind fun config => ?_
  split
  · exact coupled_ask _
  · exact coupled_pure ()

theorem coupled_keepParameters : CoupledApart pc firmware keepParameters := by
  refine coupled_table_bind (fun _ => rfl) fun table => coupled_config_bind fun config => ?_
  split
  · refine coupled_ask_bind fun reply => ?_
    cases reply with
    | ok _ => exact coupled_pure ()
    | error fault =>
      refine coupled_bind (coupled_note _ _) fun _ => coupled_modify fun s s' hApart => ⟨?_, ?_⟩
      · rw [hApart.placement]
        unfold addDegraded returning
        split <;> rfl
      · unfold addDegraded
        split <;> exact hApart.firmware
  · exact coupled_pure ()

theorem coupled_placeTee : CoupledApart pc firmware placeTee := by
  refine coupled_table_bind (fun _ => rfl) fun table => ?_
  refine coupled_bind (coupled_enterTee _) fun _ => coupled_ask_bind fun found => ?_
  dsimp only
  split
  · refine coupled_ask_bind fun restored => ?_
    split
    · exact coupled_resumeTee
    · exact coupled_bind (coupled_placeContainer _ _) fun _ => coupled_keepParameters
  · exact coupled_bind coupled_placeMonolithic fun _ => coupled_keepParameters

end Coupled

/-! ## One load -/

/-- Brought in to `p` on a board that answers as `answer` says, the image ends in `result` and leaves
`q`; the log may be any. -/
def Load (answer : (q : Request) → q.Reply) (image : ImageId) (p : Placement)
    (result : Except Error Unit) (q : Placement) : Prop :=
  ∃ log t s, Runs (imageLoaded image p log) t (result, s) ∧ Steady answer t ∧ s.placement = q

/-- Neither the loads of this image nor those of any other have to do with each other. -/
def Inert (image : ImageId) : Prop :=
  image ≠ .firmwareConfig ∧ image ≠ .tee ∧ image ≠ .nonSecureFirmware

theorem Inert.imageLoaded {image : ImageId} (h : Inert image) (p : Placement) (log : Log.Ring) :
    imageLoaded image p log = pure (.ok (), ⟨p, log⟩) := by
  obtain ⟨hConfig, hTee, hFirmware⟩ := h
  cases image <;> first | rfl | contradiction

section Load

variable {answer : (q : Request) → q.Reply} {image : ImageId} {p q q' : Placement}
  {result result' : Except Error Unit}

theorem Load.of_inert (h : Load answer image p result q) (hInert : Inert image) :
    result = .ok () ∧ q = p := by
  obtain ⟨log, t, s, hRuns, -, rfl⟩ := h
  rw [hInert.imageLoaded] at hRuns
  obtain ⟨-, hEq⟩ := runs_pure_iff.1 hRuns
  cases hEq
  exact ⟨rfl, rfl⟩

theorem Load.of_nonSecureFirmware (h : Load answer .nonSecureFirmware p result q) :
    result = .ok () ∧ q = p.returning p.table.nonSecureFirmware.entry.pc := by
  obtain ⟨log, t, s, hRuns, -, rfl⟩ := h
  have hHandOff : Ensures handOffNonSecure ⟨p, log⟩ fun _ x s' =>
      x = .ok () ∧ s'.placement = p.returning p.table.nonSecureFirmware.entry.pc := by
    refine ensures_bind.2 (ensures_get_bind.2 (ensures_pure.2 ?_))
    refine ensures_modify_bind.2 (ensures_lift.2 fun t' reply _ => ?_)
    exact ⟨rfl, rfl⟩
  exact hHandOff t result s hRuns

/-- The loads of the TEE on placements that differ in where it returns to. -/
theorem Load.of_tee {pc : UInt64} (h : Load answer .tee p result q)
    (h' : Load answer .tee (p.returning pc) result' q') :
    result' = result ∧ q' = q.returning pc ∧
      q.table.nonSecureFirmware.entry.pc = p.table.nonSecureFirmware.entry.pc := by
  obtain ⟨log, t, s, hRuns, hSteady, rfl⟩ := h
  obtain ⟨log', t', s', hRuns', hSteady', rfl⟩ := h'
  obtain ⟨-, hEnd, hApart⟩ := coupled_placeTee ⟨p, log⟩ ⟨p.returning pc, log'⟩ ⟨rfl, rfl⟩ t t' _ _
    hRuns hRuns' (hSteady.answered hSteady')
  exact ⟨hEnd.eq, hApart.placement, hApart.firmware⟩

/-- Where the board keeps its answers, a load depends on nothing but the placement. -/
theorem Load.unique (hImage : image ≠ .firmwareConfig) (h : Load answer image p result q)
    (h' : Load answer image p result' q') : result' = result ∧ q' = q := by
  by_cases hTee : image = .tee
  · subst hTee
    -- A placement differs from itself in nothing, so each end is the other with the same return.
    rw [← p.returning_self] at h h'
    obtain ⟨hResult, hLeft, -⟩ := Load.of_tee h h'
    obtain ⟨-, hRight, -⟩ := Load.of_tee h' h
    refine ⟨hResult, ?_⟩
    rw [hRight, returning_returning] at hLeft
    rw [hLeft, hRight]
  · by_cases hFirmware : image = .nonSecureFirmware
    · subst hFirmware
      obtain ⟨rfl, rfl⟩ := h.of_nonSecureFirmware
      exact h'.of_nonSecureFirmware
    · obtain ⟨rfl, rfl⟩ := h.of_inert ⟨hImage, hTee, hFirmware⟩
      exact h'.of_inert ⟨hImage, hTee, hFirmware⟩

end Load

/-! ## Two neighbouring loads -/

/-- The two loads can be swapped: each ends as before, and they leave what they left before. -/
def Swaps (a b : ImageId) : Prop :=
  ∀ (answer : (q : Request) → q.Reply) (p p₁ p₂ q₁ q₂ : Placement) (ra rb ra' rb' : Except Error Unit),
    Load answer a p ra p₁ → Load answer b p₁ rb p₂ → Load answer b p rb' q₁ →
      Load answer a q₁ ra' q₂ → ra' = ra ∧ rb' = rb ∧ q₂ = p₂

theorem Swaps.symm {a b : ImageId} (h : Swaps a b) : Swaps b a := by
  intro answer p p₁ p₂ q₁ q₂ rb ra rb' ra' hb ha ha' hb'
  obtain ⟨rfl, rfl, rfl⟩ := h answer p q₁ q₂ p₁ p₂ ra' rb' ra rb ha' hb' hb ha
  exact ⟨rfl, rfl, rfl⟩

theorem swaps_of_inert {a b : ImageId} (hInert : Inert a) (hb : b ≠ .firmwareConfig) :
    Swaps a b := by
  intro answer p p₁ p₂ q₁ q₂ ra rb ra' rb' h₁ h₂ h₁' h₂'
  obtain ⟨rfl, rfl⟩ := h₁.of_inert hInert
  obtain ⟨rfl, rfl⟩ := h₂'.of_inert hInert
  obtain ⟨rfl, rfl⟩ := h₂.unique hb h₁'
  exact ⟨rfl, rfl, rfl⟩

/-- The non-secure firmware writes where the TEE returns to, which is not read for the TEE; and what
it writes there is not changed for the TEE. -/
theorem swaps_tee_nonSecureFirmware : Swaps .tee .nonSecureFirmware := by
  intro answer p p₁ p₂ q₁ q₂ ra rb ra' rb' h₁ h₂ h₁' h₂'
  obtain ⟨rfl, rfl⟩ := h₂.of_nonSecureFirmware
  obtain ⟨rfl, rfl⟩ := h₁'.of_nonSecureFirmware
  obtain ⟨rfl, rfl, hFirmware⟩ := h₁.of_tee h₂'
  rw [hFirmware]
  exact ⟨rfl, rfl, rfl⟩

theorem swaps_of_ne {a b : ImageId} (hNe : a ≠ b) (ha : a ≠ .firmwareConfig)
    (hb : b ≠ .firmwareConfig) : Swaps a b := by
  by_cases haInert : Inert a
  · exact swaps_of_inert haInert hb
  by_cases hbInert : Inert b
  · exact (swaps_of_inert hbInert ha).symm
  have hActive : ∀ i : ImageId, i ≠ .firmwareConfig → ¬ Inert i → i = .tee ∨ i = .nonSecureFirmware := by
    intro i hi hActive
    by_contra hNeither
    exact hActive ⟨hi, not_or.1 hNeither⟩
  rcases hActive a ha haInert with rfl | rfl
  · rcases hActive b hb hbInert with rfl | rfl
    · exact absurd rfl hNe
    · exact swaps_tee_nonSecureFirmware
  · rcases hActive b hb hbInert with rfl | rfl
    · exact swaps_tee_nonSecureFirmware.symm
    · exact absurd rfl hNe

/-! ## Loads in any order -/

/-- The results of the loads of one image, in order. -/
def resultsOf (image : ImageId) (images : List ImageId) (results : List (Except Error Unit)) :
    List (Except Error Unit) :=
  ((images.zip results).filter fun load => load.1 = image).map (·.2)

theorem resultsOf_cons (image i : ImageId) (images : List ImageId) (result : Except Error Unit)
    (results : List (Except Error Unit)) :
    resultsOf image (i :: images) (result :: results) =
      (if i = image then [result] else []) ++ resultsOf image images results := by
  unfold resultsOf
  rw [List.zip_cons_cons, List.filter_cons]
  by_cases h : i = image <;> simp [h]

section LoadsInTurn

variable {answer : (q : Request) → q.Reply} {images images' : List ImageId} {image : ImageId}
  {p q q' : Placement} {t t' : List Exchange} {results results' : List (Except Error Unit)}

theorem LoadsInTurn.first (h : LoadsInTurn p (image :: images) t results q)
    (hSteady : Steady answer t) : ∃ result results' p' t', results = result :: results' ∧
      Load answer image p result p' ∧ LoadsInTurn p' images t' results' q ∧ Steady answer t' := by
  cases h with
  | @cons _ _ _ _ log t₁ t₂ result results' s hRuns hRest =>
    obtain ⟨h₁, h₂⟩ := steady_append_iff.1 hSteady
    exact ⟨result, results', s.placement, t₂, rfl, ⟨log, t₁, s, hRuns, h₁, rfl⟩, hRest, h₂⟩

theorem LoadsInTurn.unique (hOthers : .firmwareConfig ∉ images)
    (h : LoadsInTurn p images t results q) (hSteady : Steady answer t)
    (h' : LoadsInTurn p images t' results' q') (hSteady' : Steady answer t') :
    results' = results ∧ q' = q := by
  induction images generalizing p t t' results results' with
  | nil =>
    obtain ⟨-, rfl, rfl⟩ := h.eq_of_nil
    obtain ⟨-, rfl, rfl⟩ := h'.eq_of_nil
    exact ⟨rfl, rfl⟩
  | cons image images ih =>
    obtain ⟨hImage, hRest⟩ := not_or.1 fun hMem => hOthers (List.mem_cons.2 hMem)
    obtain ⟨result, later, p₁, u, rfl, hLoad, hLater, hSteady⟩ := h.first hSteady
    obtain ⟨result', later', p₁', u', rfl, hLoad', hLater', hSteady'⟩ := h'.first hSteady'
    obtain ⟨rfl, rfl⟩ := hLoad.unique (Ne.symm hImage) hLoad'
    obtain ⟨rfl, rfl⟩ := ih hRest hLater hSteady hLater' hSteady'
    exact ⟨rfl, rfl⟩

/-- Same loads in another order: the induction is on how the one order is made into the other. -/
theorem LoadsInTurn.of_perm (hPerm : images.Perm images') (hOthers : .firmwareConfig ∉ images)
    (h : LoadsInTurn p images t results q) (hSteady : Steady answer t)
    (h' : LoadsInTurn p images' t' results' q') (hSteady' : Steady answer t') :
    q' = q ∧ ∀ image, resultsOf image images' results' = resultsOf image images results := by
  induction hPerm generalizing p t t' results results' q q' with
  | nil =>
    obtain ⟨-, rfl, rfl⟩ := h.eq_of_nil
    obtain ⟨-, rfl, rfl⟩ := h'.eq_of_nil
    exact ⟨rfl, fun _ => rfl⟩
  | @cons image images images' _ ih =>
    obtain ⟨hImage, hRest⟩ := not_or.1 fun hMem => hOthers (List.mem_cons.2 hMem)
    obtain ⟨result, later, p₁, u, rfl, hLoad, hLater, hSteady⟩ := h.first hSteady
    obtain ⟨result', later', p₁', u', rfl, hLoad', hLater', hSteady'⟩ := h'.first hSteady'
    obtain ⟨rfl, rfl⟩ := hLoad.unique (Ne.symm hImage) hLoad'
    obtain ⟨rfl, hSame⟩ := ih hRest hLater hSteady hLater' hSteady'
    refine ⟨rfl, fun i => ?_⟩
    rw [resultsOf_cons, resultsOf_cons, hSame]
  | @swap a b images =>
    simp only [List.mem_cons, not_or] at hOthers
    obtain ⟨hb, ha, hRest⟩ := hOthers
    obtain ⟨rb, later₁, p₁, u₁, rfl, hLoadB, hAfterB, hSteady₁⟩ := h.first hSteady
    obtain ⟨ra, later₂, p₂, u₂, rfl, hLoadA, hLater, hSteady₂⟩ := hAfterB.first hSteady₁
    obtain ⟨ra', later₁', q₁, u₁', rfl, hLoadA', hAfterA', hSteady₁'⟩ := h'.first hSteady'
    obtain ⟨rb', later₂', q₂, u₂', rfl, hLoadB', hLater', hSteady₂'⟩ := hAfterA'.first hSteady₁'
    by_cases hSame : a = b
    · subst hSame
      obtain ⟨rfl, rfl⟩ := hLoadB.unique (Ne.symm ha) hLoadA'
      obtain ⟨rfl, rfl⟩ := hLoadA.unique (Ne.symm ha) hLoadB'
      obtain ⟨rfl, rfl⟩ := hLater.unique hRest hSteady₂ hLater' hSteady₂'
      exact ⟨rfl, fun _ => rfl⟩
    · obtain ⟨rfl, rfl, rfl⟩ := swaps_of_ne (Ne.symm hSame) (Ne.symm hb) (Ne.symm ha) answer p p₁ p₂
        q₁ q₂ rb ra rb' ra' hLoadB hLoadA hLoadA' hLoadB'
      obtain ⟨rfl, rfl⟩ := hLater.unique hRest hSteady₂ hLater' hSteady₂'
      refine ⟨rfl, fun i => ?_⟩
      rw [resultsOf_cons, resultsOf_cons, resultsOf_cons, resultsOf_cons]
      by_cases hi : a = i
      · rw [if_neg fun hbi : b = i => hSame (hi.trans hbi.symm)]
        rfl
      · rw [if_neg hi]
        rfl
  | @trans images₁ images₂ images₃ hFirst _ ih₁ ih₂ =>
    -- A board with these answers brings the images in in the order between the two.
    obtain ⟨t₂, results₂, q₂, hMiddle, hSteady₂⟩ := exists_steady_loads answer images₂ p
    obtain ⟨hLeft, hResults⟩ := ih₁ hOthers h hSteady hMiddle hSteady₂
    obtain ⟨hRight, hResults'⟩ := ih₂ (fun hMem => hOthers (hFirst.mem_iff.2 hMem)) hMiddle
      hSteady₂ h' hSteady'
    exact ⟨hRight.trans hLeft, fun i => (hResults' i).trans (hResults i)⟩

end LoadsInTurn

/-- On a board that keeps its answers, images other than the firmware configuration can be brought in
in any order, any number of times each, and whatever becomes of the single loads: they leave the same
placement, hence the same table, and the loads of each image end as in the other order, the first as
the first, the second as the second and so on. -/
theorem load_order_irrelevant {answer : (q : Request) → q.Reply} {images images' : List ImageId}
    {p q q' : Placement} {t t' : List Exchange} {results results' : List (Except Error Unit)}
    (hPerm : images.Perm images') (hOthers : .firmwareConfig ∉ images)
    (h : LoadsInTurn p images t results q) (h' : LoadsInTurn p images' t' results' q')
    (hSteady : Steady answer t) (hSteady' : Steady answer t') :
    q' = q ∧ ∀ (image : ImageId) (k : Nat),
      (resultsOf image images' results')[k]? = (resultsOf image images results)[k]? := by
  obtain ⟨rfl, hResults⟩ := h.of_perm hPerm hOthers hSteady h' hSteady'
  exact ⟨rfl, fun image k => by rw [hResults image]⟩

/-- A placement in which the regions of the TEE and of its configuration are half of all addresses
each, so that the one grows by the other once, but not twice. -/
def halves : Placement := .onTable .standard
  (((ImageTable.unresolved.update .tee fun d => { d with region := .window 0 0x8000000000000000 }).update
    .teeConfig fun d => { d with region := .window 0 0x7FFFFFFFFFFFFFFF }).update
    .nonSecureFirmware fun d => { d with entry := { d.entry with pc := 0xC0100000 } })

/-- The TEE is brought in twice, and the second time is refused; so it is when the non-secure
firmware comes before both, between them or, as here in the one order, after both. -/
theorem tee_twice_around_nonSecureFirmware : ∃ t t' results' q,
    LoadsInTurn halves [.tee, .tee, .nonSecureFirmware] t
      [.ok (), .error .invalidRegion, .ok ()] q ∧
    LoadsInTurn halves [.tee, .nonSecureFirmware, .tee] t' results' q ∧
    q.table.tee.entry.returnAddress = 0xC0100000 ∧
    (resultsOf .tee [.tee, .nonSecureFirmware, .tee] results')[1]? =
      some (.error .invalidRegion) := by
  obtain ⟨t, ⟨results, s⟩, hRuns, rfl, hReturns, hSteady⟩ := Program.exists_runs
    (steadyBoard (usualReply 0)) (loadAll [.tee, .tee, .nonSecureFirmware] ⟨halves, .empty .info⟩) ()
    (P := fun t ended => ended.1 = [.ok (), .error .invalidRegion, .ok ()] ∧
      ended.2.placement.table.tee.entry.returnAddress = 0xC0100000 ∧ Steady (usualReply 0) t)
    ⟨by decide +kernel, by decide +kernel, steady_transcript _ _⟩
  obtain ⟨t', ⟨results', s'⟩, hRuns', hSteady'⟩ := Program.exists_runs
    (steadyBoard (usualReply 0)) (loadAll [.tee, .nonSecureFirmware, .tee] ⟨halves, .empty .info⟩) ()
    (P := fun t _ => Steady (usualReply 0) t) (steady_transcript _ _)
  have hFirst := loadsInTurn_of_runs hRuns
  have hSecond := loadsInTurn_of_runs hRuns'
  obtain ⟨hSame, hEach⟩ :=
    load_order_irrelevant (by decide) (by decide) hFirst hSecond hSteady hSteady'
  rw [hSame] at hSecond
  exact ⟨t, t', results', s.placement, hFirst, hSecond, hReturns, hEach .tee 1⟩

end Placement

end BootStage
