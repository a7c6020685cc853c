import AccountService.Async.Pool

/-!
# Worlds that keep a history

A `Recorder` keeps a record beside a world: of the programs that are started, of
everything they do with its outcome, and of the crashes.  No step depends on the
record, so a recorded world has the runs of the world itself (`run_recording`),
and whatever the world tracks and keeps is tracked and kept
(`Tracks.recording`, `Preserves.recording`).

What a record is for is a second protocol: where the record holds, for every
place, how far the program there has come in it, the recorded world tracks that
protocol (`Charts.tracks`), whatever else the world tracks.
-/

namespace Async

/-- A record of what is started, of what the programs do and of the crashes. -/
structure Recorder (I : Interface) (ε ι κ R : Type) where
  started : κ → ι → R → R
  noted : ι → Obs I ε → R → R
  crashed : R → R

variable {I : Interface} {ε α ι σ χ κ R : Type}

/-- The world with a record beside it. -/
def World.recording (W : World I ε α ι σ χ κ) (recorder : Recorder I ε ι κ R) :
    World I ε α ι (σ × R) χ κ where
  act i l w :=
    ((W.act i l w.1).1,
      ((W.act i l w.1).2, recorder.noted i (.sync l (W.act i l w.1).1) w.2))
  issue i c w := (W.issue i c w.1, recorder.noted i (.fire c) w.2)
  answer i c x w :=
    (W.answer i c x w.1).map fun fw => (fw.1, (fw.2, recorder.noted i (.await c fw.1) w.2))
  env x w := (W.env x w.1).map fun w' => (w', w.2)
  launch k i w := (W.launch k i w.1).map fun pw => (pw.1, (pw.2, recorder.started k i w.2))
  crash w := (W.crash w.1, recorder.crashed w.2)

/-- A pool without its record. -/
def Pool.bare (P : Pool I ε α ι (σ × R)) : Pool I ε α ι σ := ⟨P.world.1, P.task⟩

namespace World

section Runs

variable (W : World I ε α ι σ χ κ) (recorder : Recorder I ε ι κ R)

/-- Running on to the next await does not look at the record. -/
theorem settle_recording (i : ι) (p : Prog I ε α) : ∀ w : σ × R,
    ((W.recording recorder).settle i p w).1 = (W.settle i p w.1).1 ∧
      ((W.recording recorder).settle i p w).2.1 = (W.settle i p w.1).2 := by
  induction p with
  | done a => intro w; exact ⟨rfl, rfl⟩
  | throw e => intro w; exact ⟨rfl, rfl⟩
  | stop => intro w; exact ⟨rfl, rfl⟩
  | await c k _ => intro w; exact ⟨rfl, rfl⟩
  | sync l k ih => intro w; exact ih _ _
  | fire c p ih => intro w; exact ih _

variable [DecidableEq ι]

/-- A step is a step of the world itself. -/
theorem step_recording (l : Label ι χ κ) (P : Pool I ε α ι (σ × R)) :
    ((W.recording recorder).step l P).map Pool.bare = W.step l P.bare := by
  have hsettle : ∀ i (p : Prog I ε α) (w : σ × R),
      Pool.bare ⟨((W.recording recorder).settle i p w).2,
          Function.update P.task i (some ((W.recording recorder).settle i p w).1)⟩ =
        ⟨(W.settle i p w.1).2, Function.update P.task i (some (W.settle i p w.1).1)⟩ := by
    intro i p w
    obtain ⟨hprog, hworld⟩ := W.settle_recording recorder i p w
    rw [Pool.bare, hprog, hworld]
  cases l with
  | env x =>
      show Option.map _ (Option.map _ (Option.map _ (W.env x P.world.1))) = _
      simp only [step, Pool.bare, Option.map_map]
      rfl
  | start k i =>
      show Option.map _ (if (P.task i).all Prog.ended then _ else none) =
        if (P.task i).all Prog.ended then _ else none
      by_cases hended : (P.task i).all Prog.ended
      · rw [if_pos hended, if_pos hended]
        show Option.map _ (Option.map _ (Option.map _ (W.launch k i P.world.1))) = _
        simp only [Option.map_map]
        exact congrArg (fun f => Option.map f (W.launch k i P.world.1))
          (funext fun pw => hsettle i pw.1 (pw.2, recorder.started k i P.world.2))
      · rw [if_neg hended, if_neg hended, Option.map_none]
  | reply i x =>
      cases htask : P.task i with
      | none => simp only [step, Pool.bare, htask, Option.map_none]
      | some p =>
          cases p with
          | await c k =>
              simp only [step, Pool.bare, htask]
              show Option.map _ (Option.map _ (Option.map _ (W.answer i c x P.world.1))) = _
              simp only [Option.map_map]
              rfl
          | _ => simp only [step, Pool.bare, htask, Option.map_none]
  | resume i =>
      cases htask : P.task i with
      | none => simp only [step, Pool.bare, htask, Option.map_none]
      | some p =>
          cases p with
          | sync l k =>
              simp only [step, Pool.bare, htask, Option.map_some]
              exact congrArg some (hsettle i (.sync l k) P.world)
          | fire c p =>
              simp only [step, Pool.bare, htask, Option.map_some]
              exact congrArg some (hsettle i (.fire c p) P.world)
          | _ => simp only [step, Pool.bare, htask, Option.map_none]
  | crash => rfl

/-- **A run is a run of the world itself.** -/
theorem run_recording (ls : List (Label ι χ κ)) : ∀ P : Pool I ε α ι (σ × R),
    ((W.recording recorder).run ls P).map Pool.bare = W.run ls P.bare := by
  induction ls with
  | nil => intro P; rfl
  | cons l ls ih =>
      intro P
      rw [run, run, ← step_recording W recorder l P]
      cases (W.recording recorder).step l P with
      | none => rfl
      | some P₁ => exact ih P₁

variable {W recorder}

/-- What a run has recorded, the world itself has come to. -/
theorem run_bare {ls : List (Label ι χ κ)} {P P' : Pool I ε α ι (σ × R)}
    (hrun : (W.recording recorder).run ls P = some P') : W.run ls P.bare = some P'.bare := by
  rw [← run_recording W recorder ls P, hrun, Option.map_some]

end Runs

section Record

variable {W : World I ε α ι σ χ κ} {recorder : Recorder I ε ι κ R} {K : R → Prop}

/-- Running on to the next await keeps of the record what noting keeps. -/
theorem settle_keeps_record (hnoted : ∀ i o r, K r → K (recorder.noted i o r)) (i : ι)
    (p : Prog I ε α) : ∀ w : σ × R, K w.2 → K ((W.recording recorder).settle i p w).2.2 := by
  induction p with
  | done a => intro w h; exact h
  | throw e => intro w h; exact h
  | stop => intro w h; exact h
  | await c k _ => intro w h; exact h
  | sync l k ih => intro w h; exact ih _ _ (hnoted _ _ _ h)
  | fire c p ih => intro w h; exact ih _ (hnoted _ _ _ h)

variable [DecidableEq ι]

/-- **What noting keeps of the record, a step keeps**, if starting a program
does where the step is a start. -/
theorem step_keeps_record (hnoted : ∀ i o r, K r → K (recorder.noted i o r))
    (hcrashed : ∀ r, K r → K (recorder.crashed r)) {l : Label ι χ κ}
    (hstarted : ∀ k i, l = .start k i → ∀ r, K r → K (recorder.started k i r))
    {P P' : Pool I ε α ι (σ × R)} (hstep : (W.recording recorder).step l P = some P')
    (h : K P.world.2) : K P'.world.2 := by
  cases l with
  | env x =>
      obtain ⟨w, hw, rfl⟩ := Option.map_eq_some_iff.mp hstep
      obtain ⟨w₁, -, rfl⟩ := Option.map_eq_some_iff.mp hw
      exact h
  | start k i =>
      obtain ⟨-, hstep⟩ := Option.ite_none_right_eq_some.mp hstep
      obtain ⟨pw, hpw, rfl⟩ := Option.map_eq_some_iff.mp hstep
      obtain ⟨pw₁, -, rfl⟩ := Option.map_eq_some_iff.mp hpw
      exact settle_keeps_record hnoted i _ _ (hstarted k i rfl _ h)
  | reply i x =>
      simp only [step] at hstep
      split at hstep
      · obtain ⟨fw, hfw, rfl⟩ := Option.map_eq_some_iff.mp hstep
        obtain ⟨fw₁, -, rfl⟩ := Option.map_eq_some_iff.mp hfw
        exact hnoted _ _ _ h
      · cases hstep
  | resume i =>
      simp only [step] at hstep
      split at hstep
      · obtain rfl := Option.some.inj hstep
        exact settle_keeps_record hnoted i _ _ h
      · obtain rfl := Option.some.inj hstep
        exact settle_keeps_record hnoted i _ _ h
      · cases hstep
  | crash =>
      obtain rfl := Option.some.inj hstep
      exact hcrashed _ h

end Record

end World

/-! ## What the world itself tracks and keeps -/

section Lift

variable {S : ι → Type} {W : World I ε α ι σ χ κ} {T : ∀ i, Protocol I ε (S i)}
  {π : ∀ i, σ → S i}

/-- A protocol that the world tracks is tracked beside the record. -/
theorem World.Tracks.recording {Q : ∀ i, α → S i → Prop} {E : ∀ i, ε → S i → Prop}
    (tracks : W.Tracks T Q E π) (recorder : Recorder I ε ι κ R) :
    (W.recording recorder).Tracks T Q E fun i w => π i w.1 where
  act i l w := tracks.act i l w.1
  act_other i j l w hj := tracks.act_other i j l w.1 hj
  issue i c w := tracks.issue i c w.1
  issue_other i j c w hj := tracks.issue_other i j c w.1 hj
  answer i c x w f w' hw := by
    obtain ⟨fw, hfw, heq⟩ := Option.map_eq_some_iff.mp hw
    obtain ⟨rfl, rfl⟩ := Prod.mk.inj heq
    exact tracks.answer i c x w.1 _ _ hfw
  answer_other i j c x w f w' hj hw := by
    obtain ⟨fw, hfw, heq⟩ := Option.map_eq_some_iff.mp hw
    obtain ⟨rfl, rfl⟩ := Prod.mk.inj heq
    exact tracks.answer_other i j c x w.1 _ _ hj hfw
  env i x w w' hw := by
    obtain ⟨w₁, hw₁, rfl⟩ := Option.map_eq_some_iff.mp hw
    exact tracks.env i x w.1 w₁ hw₁
  launch k i w p w' hw := by
    obtain ⟨pw, hpw, heq⟩ := Option.map_eq_some_iff.mp hw
    obtain ⟨rfl, rfl⟩ := Prod.mk.inj heq
    exact tracks.launch k i w.1 _ _ hpw
  launch_other k i j w p w' hj hw := by
    obtain ⟨pw, hpw, heq⟩ := Option.map_eq_some_iff.mp hw
    obtain ⟨rfl, rfl⟩ := Prod.mk.inj heq
    exact tracks.launch_other k i j w.1 _ _ hj hpw

/-- What the world keeps is kept beside the record. -/
theorem World.Preserves.recording {C : Label ι χ κ → Pool I ε α ι σ → Prop} {A J : σ → Prop}
    (h : W.Preserves T π C A J) (recorder : Recorder I ε ι κ R) :
    (W.recording recorder).Preserves T (fun i w => π i w.1) (fun l P => C l P.bare)
      (fun w => A w.1) fun w => J w.1 where
  env x P w' hC hA hJ hw := by
    obtain ⟨w₁, hw₁, rfl⟩ := Option.map_eq_some_iff.mp hw
    exact h.env x P.bare w₁ hC hA hJ hw₁
  launch k i P p w' hC hA hJ hw := by
    obtain ⟨pw, hpw, heq⟩ := Option.map_eq_some_iff.mp hw
    obtain ⟨rfl, rfl⟩ := Prod.mk.inj heq
    exact h.launch k i P.bare _ _ hC hA hJ hpw
  act i l w hl hA hJ := h.act i l w.1 hl hA hJ
  issue i c w hc hA hJ := h.issue i c w.1 hc hA hJ
  answer i x c k P f w' hC ht hl hA hJ hw := by
    obtain ⟨fw, hfw, heq⟩ := Option.map_eq_some_iff.mp hw
    obtain ⟨rfl, rfl⟩ := Prod.mk.inj heq
    exact h.answer i x c k P.bare _ _ hC ht hl hA hJ hfw
  crash P hC hA hJ := h.crash P.bare hC hA hJ

end Lift

/-! ## A protocol in the record -/

section Charts

variable {S : ι → Type} {W : World I ε α ι σ χ κ} {recorder : Recorder I ε ι κ R}

/-- The record holds, for every place, how far its program has come in a
protocol that every program of the world follows. -/
structure Recorder.Charts (recorder : Recorder I ε ι κ R) (W : World I ε α ι σ χ κ)
    (T : ∀ i, Protocol I ε (S i)) (Q : ∀ i, α → S i → Prop) (E : ∀ i, ε → S i → Prop)
    (π : ∀ i, R → S i) : Prop where
  noted : ∀ i o r, π i (recorder.noted i o r) = (T i).next (π i r) o
  noted_other : ∀ i j o r, j ≠ i → π j (recorder.noted i o r) = π j r
  launch : ∀ k i w p w' r, W.launch k i w = some (p, w') →
    p.Follows (T i) (Q i) (E i) (π i (recorder.started k i r))
  launch_other : ∀ k i j r, j ≠ i → π j (recorder.started k i r) = π j r

/-- **The recorded world tracks the protocol.** -/
theorem Recorder.Charts.tracks {T : ∀ i, Protocol I ε (S i)} {Q : ∀ i, α → S i → Prop}
    {E : ∀ i, ε → S i → Prop} {π : ∀ i, R → S i} (h : recorder.Charts W T Q E π) :
    (W.recording recorder).Tracks T Q E fun i w => π i w.2 where
  act i l w := h.noted i _ w.2
  act_other i j l w hj := h.noted_other i j _ w.2 hj
  issue i c w := h.noted i _ w.2
  issue_other i j c w hj := h.noted_other i j _ w.2 hj
  answer i c x w f w' hw := by
    obtain ⟨fw, -, heq⟩ := Option.map_eq_some_iff.mp hw
    obtain ⟨rfl, rfl⟩ := Prod.mk.inj heq
    exact h.noted i _ w.2
  answer_other i j c x w f w' hj hw := by
    obtain ⟨fw, -, heq⟩ := Option.map_eq_some_iff.mp hw
    obtain ⟨rfl, rfl⟩ := Prod.mk.inj heq
    exact h.noted_other i j _ w.2 hj
  env i x w w' hw := by
    obtain ⟨w₁, -, rfl⟩ := Option.map_eq_some_iff.mp hw
    rfl
  launch k i w p w' hw := by
    obtain ⟨pw, hpw, heq⟩ := Option.map_eq_some_iff.mp hw
    obtain ⟨rfl, rfl⟩ := Prod.mk.inj heq
    exact h.launch k i w.1 _ _ w.2 hpw
  launch_other k i j w p w' hj hw := by
    obtain ⟨pw, -, heq⟩ := Option.map_eq_some_iff.mp hw
    obtain ⟨rfl, rfl⟩ := Prod.mk.inj heq
    exact h.launch_other k i j w.2 hj

end Charts

end Async
